import LintHub.Proofs.Json.Quoted

/-! # Numbers as they are written

A number is written as a sign, whole digits, a fraction and an exponent. What is put together from
proper parts is split into the same parts, wherever what follows does not go on with the number.
-/

namespace LintHub.Json

open Text

/-- What follows does not go on with a number. -/
def Ends (rest : List Char) : Prop :=
  ∀ c ∈ rest.head?, c.isDigit = false ∧ c ≠ '.' ∧ c ≠ 'e' ∧ c ≠ 'E'

theorem ends_nil : Ends [] := by
  intro c h
  cases h

theorem ends_cons {c : Char} {rest : List Char}
    (h : c.isDigit = false ∧ c ≠ '.' ∧ c ≠ 'e' ∧ c ≠ 'E') : Ends (c :: rest) := by
  intro d hd
  cases hd
  exact h

/-! ## Splitting a number off -/

/-- The whole digits in front: a zero stands alone. -/
def wholeOf (body : List Char) : List Char :=
  if body.head? == some '0' then ['0'] else body.takeWhile Char.isDigit

/-- The digits behind a point in front. -/
def fractionOf (cs : List Char) : List Char :=
  if cs.head? == some '.' then (cs.drop 1).takeWhile Char.isDigit else []

/-- How many characters a fraction takes. -/
def fractionLength (ds : List Char) : Nat :=
  if ds.isEmpty then 0 else ds.length + 1

def hasSign (cs : List Char) : Bool :=
  cs.head? == some '-' || cs.head? == some '+'

/-- The digits behind a sign in front, if there is one. -/
def signedDigits (cs : List Char) : List Char :=
  (if hasSign cs then cs.drop 1 else cs).takeWhile Char.isDigit

/-- The exponent in front and how many characters it takes. -/
def exponentOf (cs : List Char) : Option (Bool × List Char) × Nat :=
  if cs.head? == some 'e' || cs.head? == some 'E' then
    let signed := cs.drop 1
    if (signedDigits signed).isEmpty then (none, 0)
    else
      (some (signed.head? == some '-', signedDigits signed),
        1 + (if hasSign signed then 1 else 0) + (signedDigits signed).length)
  else (none, 0)

/-- A number without its sign. -/
def unsignedParts? (negative : Bool) (body : List Char) : Option NumberParts :=
  let whole := wholeOf body
  if whole.isEmpty then none
  else
    let afterWhole := body.drop whole.length
    let fraction := fractionOf afterWhole
    let exponent := exponentOf (afterWhole.drop (fractionLength fraction))
    some ⟨negative, whole, fraction, exponent.1,
      (if negative then 1 else 0) + whole.length + fractionLength fraction + exponent.2⟩

theorem numberParts?_eq (cs : List Char) : numberParts? cs =
    unsignedParts? (cs.head? == some '-') (if cs.head? == some '-' then cs.drop 1 else cs) := by
  unfold numberParts?
  rfl

/-! ## Putting a number together -/

def signChars (negative : Bool) : List Char :=
  if negative then ['-'] else []

def fractionChars (ds : List Char) : List Char :=
  if ds.isEmpty then [] else '.' :: ds

def exponentChars : Option (Bool × List Char) → List Char
  | none => []
  | some (negative, ds) => 'e' :: (if negative then '-' else '+') :: ds

def unsignedChars (whole fraction : List Char) (exponent : Option (Bool × List Char)) : List Char :=
  whole ++ (fractionChars fraction ++ exponentChars exponent)

def numberChars (negative : Bool) (whole fraction : List Char)
    (exponent : Option (Bool × List Char)) : List Char :=
  signChars negative ++ unsignedChars whole fraction exponent

/-- Parts from which a number can be put together. -/
structure Proper (whole fraction : List Char) (exponent : Option (Bool × List Char)) : Prop where
  some : whole ≠ []
  leading : whole.head? = .some '0' → whole = ['0']
  digits : ∀ c ∈ whole ++ fraction, c.isDigit = true
  exponent : ∀ e ∈ exponent, e.2 ≠ [] ∧ ∀ c ∈ e.2, c.isDigit = true

theorem takeWhile_digits {ds rest : List Char} (digits : ∀ c ∈ ds, c.isDigit = true)
    (stop : ∀ c ∈ rest.head?, c.isDigit = false) :
    (ds ++ rest).takeWhile Char.isDigit = ds := by
  rw [List.takeWhile_append_of_pos digits]
  cases rest with
  | nil => simp
  | cons c cs =>
    rw [List.takeWhile_cons, if_neg (by rw [stop c rfl]; decide), List.append_nil]

theorem head?_eq_false {rest : List Char} {c : Char} (other : ∀ d ∈ rest.head?, d ≠ c) :
    (rest.head? == some c) = false := by
  cases rest with
  | nil => rfl
  | cons d ds => simpa using other d rfl

theorem fractionLength_eq (ds : List Char) : fractionLength ds = (fractionChars ds).length := by
  unfold fractionLength fractionChars
  split <;> rfl

section
variable {whole fraction rest : List Char} {exponent : Option (Bool × List Char)}

theorem exponentOf_exponentChars (digits : ∀ e ∈ exponent, e.2 ≠ [] ∧ ∀ c ∈ e.2, c.isDigit = true)
    (ends : Ends rest) :
    exponentOf (exponentChars exponent ++ rest) = (exponent, (exponentChars exponent).length) := by
  rcases exponent with - | ⟨negative, ds⟩
  · have small : (rest.head? == some 'e') = false := head?_eq_false fun c h => (ends c h).2.2.1
    have large : (rest.head? == some 'E') = false := head?_eq_false fun c h => (ends c h).2.2.2
    simp [exponentOf, exponentChars, small, large]
  · obtain ⟨some, digits⟩ := digits (negative, ds) rfl
    have taken := takeWhile_digits digits fun c h => (ends c h).1
    cases negative <;>
      simp +arith [exponentOf, exponentChars, signedDigits, hasSign, taken, some]

/-- Neither a fraction nor an exponent goes on with the digits before it. -/
theorem exponentChars_stop (exponent : Option (Bool × List Char)) (ends : Ends rest) :
    ∀ c ∈ (exponentChars exponent ++ rest).head?, c.isDigit = false ∧ c ≠ '.' := by
  intro c h
  rcases exponent with - | ⟨negative, ds⟩
  · exact ⟨(ends c h).1, (ends c h).2.1⟩
  · cases h
    decide

theorem fractionChars_stop (ends : Ends rest) :
    ∀ c ∈ (fractionChars fraction ++ (exponentChars exponent ++ rest)).head?,
      c.isDigit = false := by
  intro c h
  cases fraction with
  | nil => exact (exponentChars_stop exponent ends c h).1
  | cons d ds =>
    cases h
    decide

theorem fractionOf_fractionChars (exponent : Option (Bool × List Char))
    (digits : ∀ c ∈ fraction, c.isDigit = true) (ends : Ends rest) :
    fractionOf (fractionChars fraction ++ (exponentChars exponent ++ rest)) = fraction := by
  cases fraction with
  | nil =>
    have point := head?_eq_false fun c h => (exponentChars_stop exponent ends c h).2
    exact if_neg (ne_true_of_eq_false point)
  | cons d ds =>
    have taken := takeWhile_digits digits fun c h => (exponentChars_stop exponent ends c h).1
    simpa [fractionOf, fractionChars] using taken

theorem wholeOf_append (some : whole ≠ []) (leading : whole.head? = .some '0' → whole = ['0'])
    (digits : ∀ c ∈ whole, c.isDigit = true) (stop : ∀ c ∈ rest.head?, c.isDigit = false) :
    wholeOf (whole ++ rest) = whole := by
  unfold wholeOf
  rw [List.head?_append, List.head?_eq_some_head some, Option.some_or]
  split
  · next zero =>
    refine (leading ?_).symm
    rw [List.head?_eq_some_head some]
    exact beq_iff_eq.mp zero
  · exact takeWhile_digits digits stop

theorem Proper.digit_front (proper : Proper whole fraction exponent) :
    ∃ c cs, unsignedChars whole fraction exponent = c :: cs ∧ c.isDigit = true := by
  obtain ⟨c, cs, rfl⟩ := List.exists_cons_of_ne_nil proper.some
  exact ⟨c, _, rfl, proper.digits c (List.mem_cons_self ..)⟩

theorem unsignedParts?_unsignedChars (negative : Bool) (proper : Proper whole fraction exponent)
    (ends : Ends rest) :
    unsignedParts? negative (unsignedChars whole fraction exponent ++ rest) =
      some ⟨negative, whole, fraction, exponent,
        (numberChars negative whole fraction exponent).length⟩ := by
  have front : wholeOf (unsignedChars whole fraction exponent ++ rest) = whole := by
    unfold unsignedChars
    rw [List.append_assoc, List.append_assoc]
    exact wholeOf_append proper.some proper.leading
      (fun c h => proper.digits c (List.mem_append_left _ h)) (fractionChars_stop ends)
  have middle := fractionOf_fractionChars exponent
    (fun c h => proper.digits c (List.mem_append_right _ h)) ends
  have size : (numberChars negative whole fraction exponent).length =
      (if negative then 1 else 0) + whole.length + (fractionChars fraction).length +
        (exponentChars exponent).length := by
    unfold numberChars unsignedChars signChars
    cases negative <;> simp +arith
  unfold unsignedParts?
  rw [front]
  dsimp only
  rw [if_neg (by simpa using proper.some)]
  unfold unsignedChars
  rw [List.append_assoc, List.drop_left, List.append_assoc, middle, fractionLength_eq,
    List.drop_left, exponentOf_exponentChars proper.exponent ends, size]

/-- A number is split into the parts that it was put together from. -/
theorem numberParts?_numberChars (negative : Bool) (proper : Proper whole fraction exponent)
    (ends : Ends rest) :
    numberParts? (numberChars negative whole fraction exponent ++ rest) =
      some ⟨negative, whole, fraction, exponent,
        (numberChars negative whole fraction exponent).length⟩ := by
  rw [numberParts?_eq, ← unsignedParts?_unsignedChars negative proper ends]
  cases negative with
  | true => rfl
  | false =>
    obtain ⟨c, cs, eq, digit⟩ := proper.digit_front
    have front : numberChars false whole fraction exponent = c :: cs := eq
    have unsigned : ((c :: cs ++ rest).head? == some '-') = false := by
      simpa using ne_of_isDigit digit (show '-'.isDigit = false by decide)
    rw [front, unsigned, eq]
    rfl

theorem words_find?_numberChars (negative : Bool) (proper : Proper whole fraction exponent) :
    (words.find? fun w => w.1.isPrefixOf (numberChars negative whole fraction exponent ++ rest)) =
      none := by
  obtain ⟨c, cs, eq, digit⟩ := proper.digit_front
  have ne (d : Char) (h : d.isDigit = false) : (d == c) = false := by
    simpa using (ne_of_isDigit digit h).symm
  unfold numberChars
  rw [eq]
  cases negative <;> simp [words, signChars, List.isPrefixOf, ne]

/-- What holds of digits and of the marks between them holds of the characters of a number. -/
theorem forall_mem_numberChars {P : Char → Prop} (digit : ∀ c, c.isDigit = true → P c)
    (mark : ∀ c ∈ ['.', '-', '+', 'e'], P c) (negative : Bool)
    (proper : Proper whole fraction exponent) :
    ∀ c ∈ numberChars negative whole fraction exponent, P c := by
  have sign : ∀ c ∈ signChars negative, P c := by
    cases negative with
    | false => simp [signChars]
    | true => simpa [signChars] using mark '-' (by decide)
  have point : ∀ c ∈ fractionChars fraction, P c := by
    unfold fractionChars
    split
    · simp
    · rw [List.forall_mem_cons]
      exact ⟨mark '.' (by decide),
        fun c h => digit c (proper.digits c (List.mem_append_right _ h))⟩
  have power : ∀ c ∈ exponentChars exponent, P c := by
    rcases exponent with - | ⟨sign, ds⟩
    · simp [exponentChars]
    · rw [exponentChars, List.forall_mem_cons, List.forall_mem_cons]
      refine ⟨mark 'e' (by decide), ?_, fun c h => digit c ((proper.exponent _ rfl).2 c h)⟩
      cases sign with
      | false => exact mark '+' (by decide)
      | true => exact mark '-' (by decide)
  simp only [numberChars, unsignedChars, List.forall_mem_append]
  exact ⟨sign, fun c h => digit c (proper.digits c (List.mem_append_left _ h)), point, power⟩

theorem numberChars_isPrintable (negative : Bool) (proper : Proper whole fraction exponent) :
    ∀ c ∈ numberChars negative whole fraction exponent, IsPrintable c := by
  refine forall_mem_numberChars (fun c digit => ?_) (by simp [IsPrintable]) negative proper
  have range := range_of_isDigit digit
  exact ⟨Nat.le_trans (by decide) range.1, Nat.lt_of_le_of_lt range.2 (by decide)⟩

theorem numberChars_unescaped (negative : Bool) (proper : Proper whole fraction exponent) :
    '\\' ∉ numberChars negative whole fraction exponent := by
  have each : ∀ c ∈ numberChars negative whole fraction exponent, '\\' ≠ c :=
    forall_mem_numberChars (fun c digit => (ne_of_isDigit digit rfl).symm) (by simp) negative proper
  exact fun mem => each _ mem rfl

end

/-! ## What the parts say -/

theorem natOfChars_eq (cs : List Char) : natOfChars cs = Nat.ofDigitChars 10 cs 0 := by
  rw [natOfChars, natOfDigits_map]

/-- The power of ten that an exponent says. -/
def powerOf : Option (Bool × List Char) → Int
  | some (true, ds) => -(natOfChars ds : Int)
  | some (false, ds) => natOfChars ds
  | none => 0

/-- A number with a fraction or an exponent is floating-point. -/
theorem toJson_float (negative : Bool) (whole fraction : List Char)
    (exponent : Option (Bool × List Char)) (length : Nat)
    (part : (fraction.isEmpty && exponent.isNone) = false) :
    (⟨negative, whole, fraction, exponent, length⟩ : NumberParts).toJson =
      .ok (.float (.ofDecimal negative (natOfChars (whole ++ fraction))
        (powerOf exponent - fraction.length))) := by
  unfold NumberParts.toJson
  rw [if_neg (ne_true_of_eq_false part)]
  rcases exponent with - | ⟨_ | _, ds⟩ <;> rfl

/-! ## Integers -/

theorem proper_int (n : Nat) : Proper (Nat.toDigits 10 n) [] none where
  some := Nat.toDigits_ne_nil
  leading zero := by
    rcases Nat.eq_zero_or_pos n with rfl | pos
    · rfl
    · exact (head?_toDigits_ne_zero pos zero).elim
  digits c h := isDigit_toDigits (List.append_nil _ ▸ h)
  exponent _ h := by cases h

theorem numberChars_int (i : Int) :
    numberChars (decide (i < 0)) (Nat.toDigits 10 i.natAbs) [] none = (intText i).toList := by
  rw [intText_toList, numberChars, unsignedChars, signChars]
  simp [fractionChars, exponentChars]

theorem toJson_int {i : Int} (short : i.natAbs < 10 ^ digitLimit) (length : Nat) :
    (⟨decide (i < 0), Nat.toDigits 10 i.natAbs, [], none, length⟩ : NumberParts).toJson =
      .ok (.int i) := by
  have few : ¬ digitLimit < (Nat.toDigits 10 i.natAbs).length := by
    rw [Nat.not_lt, ← natText_length, natText_length_le_iff (by decide)]
    exact short
  unfold NumberParts.toJson
  simp only [List.isEmpty_nil, Option.isNone_none, Bool.and_self, if_true, if_neg few,
    natOfChars_eq, Nat.ofDigitChars_ten_toDigits, decide_eq_true_eq]
  congr 2
  split <;> omega

/-! ## What a number takes from the front -/

/-- A character that stands in no number and in no word. -/
def IsForeign (x : Char) : Prop :=
  x.isDigit = false ∧ x ∉ ['.', '-', '+', 'e', 'E'] ∧ ∀ w ∈ words, x ∉ w.1

instance (x : Char) : Decidable (IsForeign x) := by
  unfold IsForeign; infer_instance

theorem not_mem_take_add {cs : List Char} {x : Char} {m n : Nat} (first : x ∉ cs.take m)
    (second : x ∉ (cs.drop m).take n) : x ∉ cs.take (m + n) := by
  rw [List.take_add, List.mem_append]
  exact fun h => h.elim first second

theorem not_mem_take_one {cs : List Char} {x d : Char} (front : (cs.head? == some d) = true)
    (other : x ≠ d) : x ∉ cs.take 1 := by
  obtain ⟨tail, rfl⟩ := List.head?_eq_some_iff.mp (by simpa using front)
  simpa using other

theorem takeWhile_front {p : Char → Bool} {x : Char} (plain : p x = false) (cs : List Char) :
    x ∉ cs.take (cs.takeWhile p).length := by
  rw [← List.prefix_iff_eq_take.mp (List.takeWhile_prefix p)]
  intro h
  have fits := List.all_eq_true.mp List.all_takeWhile _ h
  rw [plain] at fits
  cases fits

section foreign

variable {x : Char} (foreign : IsForeign x)
include foreign

theorem IsForeign.ne {d : Char} (mark : d ∈ ['.', '-', '+', 'e', 'E']) : x ≠ d := by
  rintro rfl
  exact foreign.2.1 mark

theorem wholeOf_front (cs : List Char) : x ∉ cs.take (wholeOf cs).length := by
  unfold wholeOf
  split
  · next zero =>
    refine not_mem_take_one zero ?_
    rintro rfl
    exact absurd foreign.1 (by decide)
  · exact takeWhile_front foreign.1 cs

theorem fractionOf_front (cs : List Char) : x ∉ cs.take (fractionLength (fractionOf cs)) := by
  unfold fractionOf
  split
  · next point =>
    unfold fractionLength
    split
    · simp
    · rw [Nat.add_comm]
      exact not_mem_take_add (not_mem_take_one point (foreign.ne (by decide)))
        (takeWhile_front foreign.1 _)
  · simp [fractionLength]

theorem hasSign_front {cs : List Char} (sign : hasSign cs = true) : x ∉ cs.take 1 := by
  rcases Bool.or_eq_true_iff.mp sign with minus | plus
  · exact not_mem_take_one minus (foreign.ne (by decide))
  · exact not_mem_take_one plus (foreign.ne (by decide))

theorem signedDigits_front (cs : List Char) :
    x ∉ cs.take ((if hasSign cs then 1 else 0) + (signedDigits cs).length) := by
  unfold signedDigits
  split
  · next sign => exact not_mem_take_add (hasSign_front foreign sign) (takeWhile_front foreign.1 _)
  · rw [Nat.zero_add]
    exact takeWhile_front foreign.1 cs

theorem mark_front {cs : List Char}
    (mark : (cs.head? == some 'e' || cs.head? == some 'E') = true) : x ∉ cs.take 1 := by
  rcases Bool.or_eq_true_iff.mp mark with small | large
  · exact not_mem_take_one small (foreign.ne (by decide))
  · exact not_mem_take_one large (foreign.ne (by decide))

theorem exponentOf_front (cs : List Char) : x ∉ cs.take (exponentOf cs).2 := by
  unfold exponentOf
  split
  · next mark =>
    dsimp only
    split
    · simp
    · rw [Nat.add_assoc]
      exact not_mem_take_add (mark_front foreign mark) (signedDigits_front foreign _)
  · simp

theorem unsignedParts?_front {negative : Bool} {cs : List Char} {p : NumberParts}
    (h : unsignedParts? negative cs = some p) :
    ∃ n, p.length = (if negative then 1 else 0) + n ∧ 0 < n ∧ x ∉ cs.take n := by
  unfold unsignedParts? at h
  dsimp only at h
  split at h
  · cases h
  · next digits =>
    cases h
    have some : 0 < (wholeOf cs).length := List.length_pos_iff.mpr (by simpa using digits)
    have front := not_mem_take_add (wholeOf_front foreign cs)
      (not_mem_take_add (fractionOf_front foreign _) (exponentOf_front foreign _))
    exact ⟨_, by simp only [Nat.add_assoc], by omega, front⟩

theorem numberParts?_front {cs : List Char} {p : NumberParts} (h : numberParts? cs = some p) :
    0 < p.length ∧ x ∉ cs.take p.length := by
  rw [numberParts?_eq] at h
  obtain ⟨n, length, pos, plain⟩ := unsignedParts?_front foreign h
  rw [length]
  refine ⟨by omega, ?_⟩
  by_cases sign : (cs.head? == some '-') = true
  · rw [if_pos sign] at plain ⊢
    exact not_mem_take_add (not_mem_take_one sign (foreign.ne (by decide))) plain
  · rw [if_neg sign] at plain ⊢
    rwa [Nat.zero_add]

end foreign

end LintHub.Json
