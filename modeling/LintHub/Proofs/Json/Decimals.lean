import LintHub.Proofs.Json.Numbers
import LintHub.Proofs.Number.Exact

/-! # Decimals as they are written

A decimal is laid out with zeros in front, with zeros behind, with the point inside or with an
exponent. Each layout is put together from proper parts and says the number that the decimal is
nearest to.
-/

namespace LintHub.Json

open Text

/-- A decimal is laid out in these parts, and they say the number that it is nearest to. -/
structure Lays (x : Decimal) (whole fraction : List Char) (exponent : Option (Bool × List Char)) :
    Prop where
  proper : Proper whole fraction exponent
  part : (fraction.isEmpty && exponent.isNone) = false
  text : x.text.toList = unsignedChars whole fraction exponent
  value : ∀ negative, Binary64.ofDecimal negative (natOfChars (whole ++ fraction))
    (powerOf exponent - fraction.length) = .ofDecimal negative x.digits x.power

/-- How many digits of a decimal stand in front of the point. -/
def pointOf (x : Decimal) : Int :=
  (Nat.toDigits 10 x.digits).length + x.power

theorem natOfChars_toDigits (n : Nat) : natOfChars (Nat.toDigits 10 n) = n := by
  rw [natOfChars_eq, Nat.ofDigitChars_ten_toDigits]

theorem natOfChars_zeros_front (k : Nat) (cs : List Char) :
    natOfChars (List.replicate k '0' ++ cs) = natOfChars cs := by
  rw [natOfChars_eq, Nat.ofDigitChars_append, Nat.ofDigitChars_replicate_zero, Nat.mul_zero,
    natOfChars_eq]

theorem natOfChars_zeros_behind (cs : List Char) (k : Nat) :
    natOfChars (cs ++ List.replicate k '0') = natOfChars cs * 10 ^ k := by
  rw [natOfChars_eq, Nat.ofDigitChars_append, Nat.ofDigitChars_replicate_zero, natOfChars_eq,
    Nat.mul_comm]

theorem isDigit_replicate {c : Char} {k : Nat} (h : c ∈ List.replicate k '0') :
    c.isDigit = true := by
  rw [List.eq_of_mem_replicate h]
  rfl

theorem natOfChars_padded (width n : Nat) : natOfChars (padded 10 width n) = n := by
  rw [padded, natOfChars_zeros_front, natOfChars_toDigits]

theorem isDigit_padded {width n : Nat} {c : Char} (h : c ∈ padded 10 width n) :
    c.isDigit = true :=
  (List.mem_append.mp h).elim isDigit_replicate isDigit_toDigits

theorem toDigits_isSome (n : Nat) : 0 < (Nat.toDigits 10 n).length :=
  List.length_pos_iff.mpr Nat.toDigits_ne_nil

/-- The digits of a number, cut behind the first or further on. -/
theorem proper_cut {n k : Nat} (pos : 0 < n) (some : 0 < k) {exponent : Option (Bool × List Char)}
    (digits : ∀ e ∈ exponent, e.2 ≠ [] ∧ ∀ c ∈ e.2, c.isDigit = true) :
    Proper ((Nat.toDigits 10 n).take k) ((Nat.toDigits 10 n).drop k) exponent where
  some := by
    have long := toDigits_isSome n
    rw [← List.length_pos_iff, List.length_take]
    omega
  leading zero := by
    rw [List.head?_take, if_neg (by omega)] at zero
    exact (head?_toDigits_ne_zero pos zero).elim
  digits c h := isDigit_toDigits (List.take_append_drop k _ ▸ h)
  exponent := digits

section
variable {x : Decimal}

theorem lays_small (low : -4 < pointOf x) (high : pointOf x ≤ 0) :
    Lays x ['0'] (List.replicate (-pointOf x).toNat '0' ++ Nat.toDigits 10 x.digits) none := by
  have some : Nat.toDigits 10 x.digits ≠ [] := Nat.toDigits_ne_nil
  refine ⟨⟨by simp, fun _ => rfl, ?_, by simp⟩, by simp [some], ?_, fun negative => ?_⟩
  · simp only [List.mem_append, List.mem_singleton]
    rintro c (rfl | h | h)
    · rfl
    · exact isDigit_replicate h
    · exact isDigit_toDigits h
  · unfold pointOf at low high ⊢
    unfold Decimal.text
    dsimp only
    rw [natText_length, if_pos ⟨low, by omega⟩, if_pos high]
    simp [unsignedChars, fractionChars, exponentChars, natText_toList, some]
  · have digits : natOfChars (['0'] ++ (List.replicate (-pointOf x).toNat '0' ++
        Nat.toDigits 10 x.digits)) = x.digits := by
      show natOfChars (List.replicate _ '0' ++ _) = _
      rw [natOfChars_zeros_front, natOfChars_toDigits]
    have power : powerOf none - ((List.replicate (-pointOf x).toNat '0' ++
        Nat.toDigits 10 x.digits).length : Int) = x.power := by
      unfold pointOf at high ⊢
      simp only [powerOf, List.length_append, List.length_replicate]
      omega
    rw [digits, power]

theorem lays_whole (pos : 0 < x.digits) (whole : 0 ≤ x.power) (high : pointOf x ≤ 16) :
    Lays x (Nat.toDigits 10 x.digits ++ List.replicate x.power.toNat '0') ['0'] none := by
  have some : Nat.toDigits 10 x.digits ≠ [] := Nat.toDigits_ne_nil
  have count := toDigits_isSome x.digits
  refine ⟨⟨by simp [some], fun zero => ?_, ?_, by simp⟩, rfl, ?_, fun negative => ?_⟩
  · rw [List.head?_append, List.head?_eq_some_head some, Option.some_or,
      ← List.head?_eq_some_head] at zero
    exact (head?_toDigits_ne_zero pos zero).elim
  · simp only [List.mem_append, List.mem_singleton]
    rintro c ((h | h) | rfl)
    · exact isDigit_toDigits h
    · exact isDigit_replicate h
    · rfl
  · unfold pointOf at high
    have zeros : ((Nat.toDigits 10 x.digits).length : Int) + x.power -
        (Nat.toDigits 10 x.digits).length = x.power := by omega
    unfold Decimal.text
    dsimp only
    rw [natText_length, if_pos ⟨by omega, high⟩, if_neg (by omega), if_pos (by omega), zeros]
    simp [unsignedChars, fractionChars, exponentChars, natText_toList]
  · obtain ⟨k, power⟩ := Int.eq_ofNat_of_zero_le whole
    have digits : natOfChars (Nat.toDigits 10 x.digits ++ List.replicate k '0' ++ ['0']) =
        x.digits * 10 ^ (k + 1) := by
      rw [List.append_assoc, ← List.replicate_succ', natOfChars_zeros_behind, natOfChars_toDigits]
    have same := Binary64.ofDecimal_mul_pow negative pos k (k + 1)
    rw [power, Int.toNat_natCast, digits, ← same]
    congr 1
    simp only [powerOf, List.length_singleton]
    omega

theorem lays_inside (pos : 0 < x.digits) (low : 0 < pointOf x) (part : x.power < 0)
    (high : pointOf x ≤ 16) :
    Lays x ((Nat.toDigits 10 x.digits).take (pointOf x).toNat)
      ((Nat.toDigits 10 x.digits).drop (pointOf x).toNat) none := by
  have inside : (pointOf x).toNat < (Nat.toDigits 10 x.digits).length := by
    unfold pointOf at low ⊢
    omega
  have some : (Nat.toDigits 10 x.digits).drop (pointOf x).toNat ≠ [] := by
    rw [Ne, List.drop_eq_nil_iff]
    omega
  refine ⟨proper_cut pos (by omega) (by simp), by simp [some], ?_, fun negative => ?_⟩
  · unfold pointOf at low high some ⊢
    unfold Decimal.text
    dsimp only
    rw [natText_length, if_pos ⟨by omega, high⟩, if_neg (by omega), if_neg (by omega)]
    simp [unsignedChars, fractionChars, exponentChars, natText_toList, some]
  · have power : powerOf none -
        (((Nat.toDigits 10 x.digits).drop (pointOf x).toNat).length : Int) = x.power := by
      unfold pointOf at low ⊢
      simp only [powerOf, List.length_drop]
      omega
    rw [List.take_append_drop, natOfChars_toDigits, power]

theorem lays_power (pos : 0 < x.digits) (far : ¬ (-4 < pointOf x ∧ pointOf x ≤ 16)) :
    Lays x ((Nat.toDigits 10 x.digits).take 1) ((Nat.toDigits 10 x.digits).drop 1)
      (some (decide (pointOf x - 1 < 0), padded 10 2 (pointOf x - 1).natAbs)) := by
  have count := toDigits_isSome x.digits
  have digits : padded 10 2 (pointOf x - 1).natAbs ≠ [] := by
    simp [padded, Nat.toDigits_ne_nil]
  refine ⟨proper_cut pos Nat.one_pos ?_, by simp, ?_, fun negative => ?_⟩
  · rintro e ⟨⟩
    exact ⟨digits, fun c => isDigit_padded⟩
  · unfold pointOf at far ⊢
    unfold Decimal.text
    dsimp only
    rw [natText_length, if_neg far, natText_toList]
    simp only [String.toList_append, paddedNat_toList, String.toList_ofList, unsignedChars,
      exponentChars, fractionChars, apply_ite String.toList, decide_eq_true_eq, List.append_assoc]
    split <;> split <;> rfl
  · have power : powerOf (some (decide (pointOf x - 1 < 0), padded 10 2 (pointOf x - 1).natAbs)) -
        (((Nat.toDigits 10 x.digits).drop 1).length : Int) = x.power := by
      have said : powerOf (some (decide (pointOf x - 1 < 0), padded 10 2 (pointOf x - 1).natAbs)) =
          pointOf x - 1 := by
        by_cases h : pointOf x - 1 < 0
        · rw [decide_eq_true h, powerOf, natOfChars_padded]
          omega
        · rw [decide_eq_false h, powerOf, natOfChars_padded]
          omega
      rw [said, List.length_drop]
      unfold pointOf
      omega
    rw [List.take_append_drop, natOfChars_toDigits, power]

end

/-- A decimal is laid out in proper parts, wherever its point stands. -/
theorem exists_lays {x : Decimal} (pos : 0 < x.digits) :
    ∃ whole fraction exponent, Lays x whole fraction exponent := by
  by_cases near : -4 < pointOf x ∧ pointOf x ≤ 16
  · by_cases small : pointOf x ≤ 0
    · exact ⟨_, _, _, lays_small near.1 small⟩
    · by_cases whole : 0 ≤ x.power
      · exact ⟨_, _, _, lays_whole pos whole near.2⟩
      · exact ⟨_, _, _, lays_inside pos (by omega) (by omega) near.2⟩
  · exact ⟨_, _, _, lays_power pos near⟩

/-- A finite number is written in proper parts that say this number. -/
theorem finite_parts (negative : Bool) {m : Nat} {e : Int} (fits : IsBinary64 m e) :
    ∃ whole fraction exponent, Proper whole fraction exponent ∧
      (writeFloat (.finite negative m e fits)).toList =
        numberChars negative whole fraction exponent ∧
      ∀ length, (⟨negative, whole, fraction, exponent, length⟩ : NumberParts).toJson =
        .ok (.float (.finite negative m e fits)) := by
  have written : (writeFloat (.finite negative m e fits)).toList =
      signChars negative ++ (Binary64.magnitudeText m e).toList := by
    show ((if negative then "-" else "") ++ Binary64.magnitudeText m e).toList = _
    rw [String.toList_append]
    cases negative <;> rfl
  rcases Nat.eq_zero_or_pos m with rfl | pos
  · obtain rfl : e = -1074 := fits.2.2.2.resolve_left (by decide)
    refine ⟨['0'], ['0'], none, ⟨by simp, fun _ => rfl, by simp, by simp⟩, ?_, fun length => ?_⟩
    · rw [written]
      rfl
    · rw [toJson_float _ _ _ _ _ rfl]
      rfl
  · have shortest := Binary64.ofDecimal_shortest negative fits pos
    have digits : 0 < (shortestDecimal m e).digits := by
      refine Nat.pos_of_ne_zero fun zero => ?_
      rw [zero] at shortest
      cases shortest
      cases pos
    obtain ⟨whole, fraction, exponent, lays⟩ := exists_lays digits
    refine ⟨whole, fraction, exponent, lays.proper, ?_, fun length => ?_⟩
    · rw [written, Binary64.magnitudeText, if_neg (Nat.ne_of_gt pos), lays.text]
      rfl
    · rw [toJson_float _ _ _ _ _ lays.part, lays.value, shortest]

theorem writeFloat_isPrintable (x : Binary64) : ∀ c ∈ (writeFloat x).toList, IsPrintable c := by
  cases x with
  | finite negative m e fits =>
    obtain ⟨whole, fraction, exponent, proper, written, -⟩ := finite_parts negative fits
    rw [written]
    exact numberChars_isPrintable negative proper
  | infinite negative => cases negative <;> simp [writeFloat, IsPrintable]
  | notANumber => simp [writeFloat, IsPrintable]

theorem writeFloat_unescaped (x : Binary64) : '\\' ∉ (writeFloat x).toList := by
  cases x with
  | finite negative m e fits =>
    obtain ⟨whole, fraction, exponent, proper, written, -⟩ := finite_parts negative fits
    rw [written]
    exact numberChars_unescaped negative proper
  | infinite negative => cases negative <;> simp [writeFloat]
  | notANumber => simp [writeFloat]

end LintHub.Json
