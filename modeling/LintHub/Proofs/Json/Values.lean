import LintHub.Issue
import LintHub.Proofs.Work.Faults

/-! # Values that are not what is asked for

Reading a value as a text, an object, a list or a number fails with a fault of that value, except that
an infinite number has no integer.
-/

namespace LintHub

/-- A fault of a value in a document. -/
def Fault.Malformed (f : Fault) : Prop :=
  f.isOneOf [.value, .type, .member, .key] = true

open Fault

theorem intOfText_malformed (s : String) : Faults Malformed (intOfText s) := by
  unfold intOfText
  dsimp only
  split
  · exact .error rfl
  · split
    · exact .error rfl
    · exact .ok _

theorem fieldsFor_malformed (member : String) (v : Json) : Faults Malformed (v.fieldsFor member) := by
  cases v <;> first | exact .ok _ | exact .error rfl

theorem textFor_malformed (member : String) (v : Json) : Faults Malformed (v.textFor member) := by
  cases v <;> first | exact .ok _ | exact .error rfl

theorem items_malformed (v : Json) : Faults Malformed v.items := by
  cases v <;> first | exact .ok _ | exact .error rfl

theorem severity_malformed (v : Json) : Faults Malformed (Severity.ofJson v) := by
  unfold Severity.ofJson
  split
  · exact .ok _
  · exact .map (textFor_malformed _ _)

theorem category_malformed (v : Json) : Faults Malformed (Category.ofJson v) := by
  unfold Category.ofJson
  split
  · exact .ok _
  · exact .map (textFor_malformed _ _)

theorem fieldsFor_eq_ok {member : String} {v : Json} {d : Fields} :
    v.fieldsFor member = .ok d ↔ v = .obj d := by
  cases v <;> simp [Json.fieldsFor]

theorem toInt_error {v : Json} {f : Fault} (h : v.toInt = .error f) :
    f.Malformed ∨ f = .infiniteInteger ∧ ∃ negative, v = .float (.infinite negative) := by
  cases v with
  | float x =>
    cases x with
    | infinite negative =>
      cases h
      exact .inr ⟨rfl, negative, rfl⟩
    | notANumber =>
      cases h
      exact .inl rfl
    | finite => cases h
  | str s => exact .inl (intOfText_malformed s f h)
  | bool b => cases h
  | int i => cases h
  | null | arr | obj =>
    cases h
    exact .inl rfl

theorem Faults.not_error {α : Type} {P : Fault → Prop} {e : Except Fault α} {f : Fault}
    (he : Faults P e) (h : ¬ P f) : e ≠ .error f :=
  fun eq => h (he f eq)

theorem infiniteInteger_not_malformed : ¬ infiniteInteger.Malformed := by
  intro h
  cases h

/-- The one number that has no integer. -/
theorem toInt_overflows_iff {v : Json} {f : Fault} :
    (v.toInt = .error f ∧ ¬ f.Malformed) ↔
      f = .infiniteInteger ∧ ∃ negative, v = .float (.infinite negative) := by
  constructor
  · rintro ⟨h, other⟩
    exact (toInt_error h).resolve_left other
  · rintro ⟨rfl, negative, rfl⟩
    exact ⟨rfl, infiniteInteger_not_malformed⟩

end LintHub
