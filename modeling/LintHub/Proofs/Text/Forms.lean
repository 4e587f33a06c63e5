import LintHub.Text.Lines
import LintHub.Proofs.Text.Numerals

/-! # Forms with digits

A form is checked up to one newline at the end of a text, and where it asks for a digit it takes those
of every script. What it takes beyond the plain texts that it is meant for has such a newline or such a
digit in it.
-/

namespace LintHub.Text

variable {cs : List Char}

/-- A form of a text, or of what stands before a newline at its end. -/
def OnLine (Form : List Char → Prop) (cs : List Char) : Prop :=
  Form cs ∨ ∃ front, cs = front ++ ['\n'] ∧ Form front

theorem holdsOnLine_iff {form : List Char → Bool} {Form : List Char → Prop}
    (h : ∀ cs, form cs = true ↔ Form cs) : holdsOnLine form cs = true ↔ OnLine Form cs := by
  unfold holdsOnLine OnLine
  rw [Bool.or_eq_true, Bool.and_eq_true, beq_iff_eq, h, h, List.getLast?_eq_some_iff]
  refine or_congr_right ⟨?_, ?_⟩
  · rintro ⟨⟨front, rfl⟩, holds⟩
    rw [List.dropLast_concat] at holds
    exact ⟨front, rfl, holds⟩
  · rintro ⟨front, rfl, holds⟩
    rw [List.dropLast_concat]
    exact ⟨⟨front, rfl⟩, holds⟩

/-- One of the ten digits from `0` to `9`. -/
def IsPlainDigit (c : Char) : Prop :=
  c.isDigit = true

/-- A decimal digit of any script. -/
def IsScriptDigit (c : Char) : Prop :=
  isDigit c = true

/-- A newline stands in a text, or a digit of another script. -/
def Stray (cs : List Char) : Prop :=
  '\n' ∈ cs ∨ ∃ c ∈ cs, IsScriptDigit c ∧ ¬ IsPlainDigit c

/-- A form that is made of plain letters and digits, and of digits of a class where it asks for one. -/
structure DigitForm (Form : (Char → Prop) → List Char → Prop) : Prop where
  made : ∀ {Digit : Char → Prop} {cs : List Char}, Form Digit cs →
    ∀ c ∈ cs, Digit c ∨ c.isAlphanum = true
  wider : ∀ {Digit Digit' : Char → Prop} {cs : List Char}, Form Digit cs →
    (∀ c ∈ cs, Digit c → Digit' c) → Form Digit' cs

/-- A plain letter is a digit in no script. -/
theorem isPlainDigit_of_isAlphanum {c : Char} (plain : c.isAlphanum = true) (digit : IsScriptDigit c) :
    IsPlainDigit c := by
  have small : c.toNat < 128 := by
    change (decide (65 ≤ c.val ∧ c.val ≤ 90) || decide (97 ≤ c.val) && decide (c.val ≤ 122) ||
      decide (48 ≤ c.val) && decide (c.val ≤ 57)) = true at plain
    simp only [Bool.or_eq_true, Bool.and_eq_true, decide_eq_true_eq, UInt32.le_iff_toNat_le] at plain
    change ((65 ≤ c.toNat ∧ c.toNat ≤ 90) ∨ (97 ≤ c.toNat ∧ c.toNat ≤ 122)) ∨
      (48 ≤ c.toNat ∧ c.toNat ≤ 57) at plain
    omega
  unfold IsScriptDigit isDigit digitValue? at digit
  rw [if_pos small] at digit
  unfold IsPlainDigit
  by_cases h : c.isDigit = true
  · exact h
  · rw [if_neg h] at digit
    cases digit

namespace DigitForm

variable {Form : (Char → Prop) → List Char → Prop} (form : DigitForm Form)
include form

theorem not_stray (h : Form IsPlainDigit cs) : ¬ Stray cs := by
  rintro (newline | ⟨c, mem, digit, other⟩)
  · rcases form.made h _ newline with digit | plain
    · cases digit
    · cases plain
  · rcases form.made h c mem with plain | plain
    · exact other plain
    · exact other (isPlainDigit_of_isAlphanum plain digit)

/-- A text of the plain form is taken. -/
theorem onLine (h : Form IsPlainDigit cs) : OnLine (Form IsScriptDigit) cs :=
  .inl (form.wider h fun _ _ => isDigit_of_ascii)

/-- What is taken is of the plain form unless a newline or a digit of another script is in it. -/
theorem plain_iff (h : OnLine (Form IsScriptDigit) cs) : Form IsPlainDigit cs ↔ ¬ Stray cs := by
  refine ⟨form.not_stray, fun clean => ?_⟩
  rcases h with h | ⟨front, rfl, -⟩
  · refine form.wider h fun c mem digit => ?_
    by_cases plain : IsPlainDigit c
    · exact plain
    · exact (clean (.inr ⟨c, mem, digit, plain⟩)).elim
  · exact (clean (.inl (by simp))).elim

end DigitForm

end LintHub.Text
