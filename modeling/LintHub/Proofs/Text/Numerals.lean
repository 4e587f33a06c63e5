import Mathlib.Algebra.Group.Nat.Defs
import LintHub.Text.Digit

/-! # Numerals

What is written in decimal or hexadecimal notation is read back: the digits of a number are its
quotients and remainders, and decimal digits fold up to the number again.
-/

namespace LintHub.Text

theorem natText_toList (n : Nat) : (natText n).toList = Nat.toDigits 10 n := by
  show (toString n).toList = _
  rw [Nat.toString_eq_ofList_toDigits, String.toList_ofList]

theorem natText_length (n : Nat) : (natText n).length = (Nat.toDigits 10 n).length := by
  rw [← String.length_toList, natText_toList]

theorem intText_toList (i : Int) :
    (intText i).toList = (if i < 0 then ['-'] else []) ++ Nat.toDigits 10 i.natAbs := by
  unfold intText
  split <;> simp [natText_toList]

/-- A numeral of at most `limit` digits is one of a number below `10 ^ limit`. -/
theorem natText_length_le_iff {n limit : Nat} (pos : 0 < limit) :
    (natText n).length ≤ limit ↔ n < 10 ^ limit := by
  rw [natText_length, Nat.length_toDigits_le_iff (by decide) pos]

theorem natOfDigits_map (cs : List Char) :
    natOfDigits (cs.map fun c => c.toNat - 48) = Nat.ofDigitChars 10 cs 0 := by
  unfold natOfDigits
  rw [List.foldl_map, Nat.ofDigitChars_eq_foldl]
  rfl

theorem isDigit_toDigits {n : Nat} {c : Char} (h : c ∈ Nat.toDigits 10 n) : c.isDigit = true :=
  Nat.isDigit_of_mem_toDigits (by decide) (by decide) h

theorem ne_of_isDigit {c d : Char} (hc : c.isDigit = true) (hd : d.isDigit = false) : c ≠ d := by
  rintro rfl
  rw [hc] at hd
  cases hd

theorem range_of_isDigit {c : Char} (h : c.isDigit = true) : 48 ≤ c.toNat ∧ c.toNat ≤ 57 := by
  simp only [Char.isDigit, Bool.and_eq_true, decide_eq_true_eq] at h
  exact ⟨h.1, h.2⟩

theorem digitValue?_of_isDigit {c : Char} (h : c.isDigit = true) :
    digitValue? c = some (c.toNat - 48) := by
  have small : c.toNat < 128 := by
    have range := range_of_isDigit h
    omega
  rw [digitValue?, if_pos small, if_pos h]

theorem isDigit_of_ascii {c : Char} (h : c.isDigit = true) : isDigit c = true := by
  rw [isDigit, digitValue?_of_isDigit h]
  rfl

theorem filterMap_digitValue? {cs : List Char} (h : ∀ c ∈ cs, c.isDigit = true) :
    cs.filterMap digitValue? = cs.map fun c => c.toNat - 48 := by
  induction cs with
  | nil => rfl
  | cons c cs ih =>
    have first := digitValue?_of_isDigit (h c (List.mem_cons_self ..))
    rw [List.filterMap_cons, first, ih fun d hd => h d (List.mem_cons_of_mem _ hd)]
    rfl

/-- Digits of all scripts are taken, so also those in which numbers are written. -/
theorem natOfDigits_toDigits (n : Nat) :
    natOfDigits ((Nat.toDigits 10 n).filterMap digitValue?) = n := by
  rw [filterMap_digitValue? fun c => isDigit_toDigits, natOfDigits_map,
    Nat.ofDigitChars_ten_toDigits]

/-- Only zero is written with a zero in front. -/
theorem head?_toDigits_ne_zero {n : Nat} (pos : 0 < n) : (Nat.toDigits 10 n).head? ≠ some '0' := by
  induction n using Nat.strongRecOn with
  | ind n ih =>
    by_cases small : n < 10
    · rw [Nat.toDigits_of_lt_base small]
      have digits : ∀ d < 10, 0 < d → d.digitChar ≠ '0' := by decide
      simpa using digits n small pos
    · rw [Nat.toDigits_of_base_le (by decide) (by omega)]
      have above := ih (n / 10) (by omega) (by omega)
      rw [List.head?_append]
      cases front : (Nat.toDigits 10 (n / 10)).head? with
      | none => exact (Nat.toDigits_ne_nil (List.head?_eq_none_iff.mp front)).elim
      | some c => rwa [front] at above

/-! ## Fixed widths -/

/-- Digits in a base, with zeros in front up to a width. -/
def padded (base width n : Nat) : List Char :=
  List.replicate (width - (Nat.toDigits base n).length) '0' ++ Nat.toDigits base n

theorem padded_one {base n : Nat} (h : n < base) : padded base 1 n = [n.digitChar] := by
  rw [padded, Nat.toDigits_of_lt_base h]
  rfl

/-- The last digit is the remainder, those before it are the digits of the quotient. -/
theorem padded_succ {base width n : Nat} (hb : 1 < base) (hw : 0 < width) :
    padded base (width + 1) n = padded base width (n / base) ++ [(n % base).digitChar] := by
  by_cases small : n < base
  · obtain ⟨w, rfl⟩ : ∃ w, width = w + 1 := ⟨width - 1, by omega⟩
    have zero : padded base (w + 1) 0 = List.replicate (w + 1) '0' := by
      rw [padded, Nat.toDigits_zero, List.replicate_succ']
      rfl
    rw [Nat.div_eq_of_lt small, Nat.mod_eq_of_lt small, zero, padded, Nat.toDigits_of_lt_base small]
    rfl
  · have step := Nat.toDigits_of_base_le hb (Nat.le_of_not_lt small)
    rw [padded, step, List.length_append, List.length_singleton, Nat.add_sub_add_right,
      ← List.append_assoc]
    rfl

theorem paddedNat_toList (width n : Nat) : (paddedNat width n).toList = padded 10 width n := by
  unfold paddedNat padded
  dsimp only
  rw [String.toList_append, String.toList_ofList, natText_length, natText_toList]

theorem hexText_toList (width n : Nat) : (hexText width n).toList = padded 16 width n := by
  unfold hexText
  rw [String.toList_ofList]
  rfl

theorem paddedNat_two {n : Nat} (h : n < 100) :
    (paddedNat 2 n).toList = [(n / 10).digitChar, (n % 10).digitChar] := by
  rw [paddedNat_toList, padded_succ (by decide) (by decide), padded_one (by omega)]
  rfl

theorem hexText_four {n : Nat} (h : n < 65536) :
    (hexText 4 n).toList =
      [(n / 16 / 16 / 16).digitChar, (n / 16 / 16 % 16).digitChar, (n / 16 % 16).digitChar,
        (n % 16).digitChar] := by
  rw [hexText_toList, padded_succ (by decide) (by decide), padded_succ (by decide) (by decide),
    padded_succ (by decide) (by decide), padded_one (by omega)]
  rfl

/-- A number of as many digits as the width has no zeros in front. -/
theorem hexValue?_lt {c : Char} {d : Nat} (h : hexValue? c = some d) : d < 16 := by
  unfold hexValue? at h
  simp only [Bool.and_eq_true, decide_eq_true_eq, Char.le_def, UInt32.le_iff_toNat_le] at h
  split at h
  · next range =>
    cases h
    have high : c.toNat ≤ 57 := range.2
    omega
  · split at h
    · next range =>
      cases h
      have high : c.toNat ≤ 102 := range.2
      omega
    · split at h
      · next range =>
        cases h
        have high : c.toNat ≤ 70 := range.2
        omega
      · cases h

theorem natText_four {n : Nat} (low : 1000 ≤ n) (high : n ≤ 9999) :
    (natText n).toList.length = 4 := by
  have most := (natText_length_le_iff (n := n) (by decide : 0 < 4)).mpr (by omega)
  have least : ¬ (natText n).length ≤ 3 := by
    rw [natText_length_le_iff (by decide)]
    omega
  rw [String.length_toList]
  omega

/-! ## Numerals of different numbers -/

/-- What a digit up to fifteen stands for. -/
def digitWorth (c : Char) : Nat :=
  if c.toNat < 97 then c.toNat - 48 else c.toNat - 87

theorem digitWorth_digitChar {d : Nat} (small : d < 16) : digitWorth d.digitChar = d := by
  have each : ∀ d < 16, digitWorth d.digitChar = d := by decide
  exact each d small

/-- The number that digits in a base write after `n`. -/
def worth (base n : Nat) (cs : List Char) : Nat :=
  cs.foldl (fun n c => base * n + digitWorth c) n

theorem worth_toDigits {base : Nat} (low : 1 < base) (high : base ≤ 16) (n : Nat) :
    worth base 0 (Nat.toDigits base n) = n := by
  induction n using Nat.strongRecOn with
  | ind n ih =>
    by_cases small : n < base
    · rw [Nat.toDigits_of_lt_base small]
      show base * 0 + digitWorth n.digitChar = n
      rw [digitWorth_digitChar (by omega), Nat.mul_zero, Nat.zero_add]
    · have less : n / base < n := Nat.div_lt_self (by omega) low
      have last : n % base < 16 := Nat.lt_of_lt_of_le (Nat.mod_lt n (by omega)) high
      have front := ih (n / base) less
      unfold worth at front ⊢
      rw [Nat.toDigits_of_base_le low (Nat.le_of_not_lt small), List.foldl_append, front]
      show base * (n / base) + digitWorth (n % base).digitChar = n
      rw [digitWorth_digitChar last, Nat.div_add_mod]

/-- Zeros in front write no number. -/
theorem worth_padded {base : Nat} (low : 1 < base) (high : base ≤ 16) (width n : Nat) :
    worth base 0 (padded base width n) = n := by
  have zeros (k : Nat) : worth base 0 (List.replicate k '0') = 0 := by
    induction k with
    | zero => rfl
    | succ k ih => exact ih
  have digits := worth_toDigits low high n
  have front := zeros (width - (Nat.toDigits base n).length)
  unfold worth at digits front ⊢
  rw [padded, List.foldl_append, front, digits]

theorem hexText_injective (width : Nat) : Function.Injective (hexText width) := by
  intro m n same
  have digits := congrArg String.toList same
  rw [hexText_toList, hexText_toList] at digits
  rw [← worth_padded (show 1 < 16 by decide) (by decide) width m, digits,
    worth_padded (by decide) (by decide)]

theorem toDigits_injective {base : Nat} (low : 1 < base) (high : base ≤ 16) :
    Function.Injective (Nat.toDigits base) := by
  intro m n same
  rw [← worth_toDigits low high m, same, worth_toDigits low high]

theorem intText_injective : Function.Injective intText := by
  intro i j same
  have texts := congrArg String.toList same
  rw [intText_toList, intText_toList] at texts
  have unsigned (n : Nat) (ds : List Char) : Nat.toDigits 10 n ≠ '-' :: ds := fun eq =>
    ne_of_isDigit (isDigit_toDigits (eq ▸ List.mem_cons_self ..)) (show '-'.isDigit = false by decide) rfl
  have digits := toDigits_injective (show 1 < 10 by decide) (by decide)
  split at texts
  · split at texts
    · have sizes := digits (List.cons.inj texts).2
      omega
    · exact (unsigned _ _ texts.symm).elim
  · split at texts
    · exact (unsigned _ _ texts).elim
    · have sizes := digits texts
      omega

end LintHub.Text
