import LintHub.Proofs.Json.Values
import LintHub.Store

/-! # Entries that overflow

What is wrong with an entry is told in a store fault, unless a number in it is too large: a line, a
column, a count or a duration is infinite, or a duration is no span.
-/

namespace LintHub

open Fault

/-! ## Issues -/

namespace Issue

/-- A document of an issue at an infinite line or column. -/
inductive Endless : Json → Prop where
  | line {d : Fields} {negative : Bool}
    (line : d.valueOr "line_number" (.int 0) = .float (.infinite negative)) : Endless (.obj d)
  | column {d : Fields} {line : Int} {negative : Bool}
    (line : (d.valueOr "line_number" (.int 0)).toInt = .ok line)
    (column : d.valueOr "column_number" (.int 0) = .float (.infinite negative)) : Endless (.obj d)

theorem ofJson_overflows_iff {v : Json} {f : Fault} :
    (ofJson v = .error f ∧ ¬ f.Malformed) ↔ f = .infiniteInteger ∧ Endless v := by
  unfold ofJson
  constructor
  · rintro ⟨h, other⟩
    have severity (v : Json) : Severity.ofJson v ≠ .error f := (severity_malformed v).not_error other
    have category (v : Json) : Category.ofJson v ≠ .error f := (category_malformed v).not_error other
    have fields (v : Json) : v.fieldsFor "get" ≠ .error f := (fieldsFor_malformed _ v).not_error other
    simp only [bind_error_iff, fields, false_or, fieldsFor_eq_ok, severity, category] at h
    obtain ⟨d, rfl, h | ⟨line, read, h | ⟨column, -, severity, -, category, -, h⟩⟩⟩ := h
    · obtain ⟨rfl, negative, line⟩ := toInt_overflows_iff.mp ⟨h, other⟩
      exact ⟨rfl, .line line⟩
    · obtain ⟨rfl, negative, column⟩ := toInt_overflows_iff.mp ⟨h, other⟩
      exact ⟨rfl, .column read column⟩
    · cases h
  · rintro ⟨rfl, endless⟩
    refine ⟨?_, infiniteInteger_not_malformed⟩
    simp only [bind_error_iff, fieldsFor_eq_ok]
    cases endless with
    | line line => exact .inr ⟨_, rfl, .inl (by rw [line]; rfl)⟩
    | column read column => exact .inr ⟨_, rfl, .inr ⟨_, read, .inl (by rw [column]; rfl)⟩⟩

end Issue

/-! ## Analyses -/

theorem check_ne_outOfRange {m : Time.Moment} : m.check ≠ .error .outOfRange := by
  intro h
  unfold Time.Moment.check at h
  repeat
    split at h
    · cases h
  cases h

theorem parse_ne_outOfRange {s : String} : Time.parse s ≠ .error .outOfRange := by
  intro h
  unfold Time.parse at h
  split at h
  · cases h
  · unfold Time.iso at h
    split at h
    · cases h
    · split at h
      · cases h
      · exact check_ne_outOfRange h

namespace Analysis

theorem momentOf_malformed (now : Time.Moment) (v : Json) : Faults Malformed (momentOf now v) := by
  intro f h
  unfold momentOf at h
  split at h
  · cases h
  · split at h
    · next s _ =>
      cases parsed : Time.parse s with
      | ok m =>
        rw [parsed] at h
        cases h
      | error e =>
        rw [parsed] at h
        cases h
        cases e with
        | outOfRange => exact (parse_ne_outOfRange parsed).elim
        | _ => rfl
    · cases h
      rfl

theorem span_not_malformed (e : Time.SpanError) : ¬ (span e).Malformed := by
  intro h
  cases h

/-- The time and all issues of a document can be read. -/
structure IssuesRead (now : Time.Moment) (d : Fields) : Prop where
  time : ∃ t, momentOf now (d.value "timestamp") = .ok t
  issues : ∃ vs is, (d.valueOr "issues" (.arr [])).items = .ok vs ∧ vs.mapM Issue.ofJson = .ok is

/-- The fields of a document of an analysis in which a number is too large. -/
inductive Overflows (now : Time.Moment) (d : Fields) : Fault → Prop where
  | issue {t : Time.Moment} {before after : List Json} {v : Json}
    (time : momentOf now (d.value "timestamp") = .ok t)
    (found : (d.valueOr "issues" (.arr [])).items = .ok (before ++ v :: after))
    (read : ∀ u ∈ before, ∃ i, Issue.ofJson u = .ok i) (endless : Issue.Endless v) :
    Overflows now d .infiniteInteger
  | files {negative : Bool} (read : IssuesRead now d)
    (infinite : d.valueOr "files_analyzed" (.int 0) = .float (.infinite negative)) :
    Overflows now d .infiniteInteger
  | millis {files : Int} {negative : Bool} (read : IssuesRead now d)
    (counted : (d.valueOr "files_analyzed" (.int 0)).toInt = .ok files)
    (infinite : d.valueOr "execution_time_ms" (.int 0) = .float (.infinite negative)) :
    Overflows now d .infiniteInteger
  | span {files millis : Int} {e : Time.SpanError} (read : IssuesRead now d)
    (counted : (d.valueOr "files_analyzed" (.int 0)).toInt = .ok files)
    (given : (d.valueOr "execution_time_ms" (.int 0)).toInt = .ok millis)
    (large : Time.Span.ofMillis millis = .error e) : Overflows now d (.span e)

theorem ofJson_overflows_iff {now : Time.Moment} {d : Fields} {f : Fault} :
    (ofJson now (.obj d) = .error f ∧ ¬ f.Malformed) ↔ Overflows now d f := by
  unfold ofJson
  constructor
  · rintro ⟨h, other⟩
    have moment (v : Json) : momentOf now v ≠ .error f := (momentOf_malformed now v).not_error other
    have items (v : Json) : v.items ≠ .error f := (items_malformed v).not_error other
    have fields (v : Json) : v.fieldsFor "get" ≠ .error f := (fieldsFor_malformed _ v).not_error other
    simp only [bind_error_iff, moment, items, fields, false_or, fieldsFor_eq_ok, Json.obj.injEq,
      exists_eq_left'] at h
    obtain ⟨t, time, vs, found, h | ⟨is, read, h⟩⟩ := h
    · obtain ⟨before, v, after, rfl, fine, fails⟩ := mapM_error_iff.mp h
      obtain ⟨rfl, endless⟩ := Issue.ofJson_overflows_iff.mp ⟨fails, other⟩
      exact .issue time found fine endless
    · have whole : IssuesRead now d := ⟨⟨t, time⟩, vs, is, found, read⟩
      obtain h | ⟨files, counted, h | ⟨millis, given, h | ⟨s, -, h⟩⟩⟩ := h
      · obtain ⟨rfl, negative, infinite⟩ := toInt_overflows_iff.mp ⟨h, other⟩
        exact .files whole infinite
      · obtain ⟨rfl, negative, infinite⟩ := toInt_overflows_iff.mp ⟨h, other⟩
        exact .millis whole counted infinite
      · obtain ⟨e, large, rfl⟩ := mapError_error_iff.mp h
        exact .span whole counted given large
      · cases h
  · intro h
    simp only [bind_error_iff, fieldsFor_eq_ok, Json.obj.injEq, exists_eq_left', mapM_error_iff,
      mapError_error_iff]
    cases h with
    | issue time found read endless =>
      obtain ⟨fails, other⟩ := Issue.ofJson_overflows_iff.mpr ⟨rfl, endless⟩
      exact ⟨.inr (.inr ⟨_, time, .inr ⟨_, found, .inl ⟨_, _, _, rfl, read, fails⟩⟩⟩), other⟩
    | files whole infinite =>
      obtain ⟨⟨t, time⟩, vs, is, found, read⟩ := whole
      obtain ⟨fails, other⟩ := toInt_overflows_iff.mpr ⟨rfl, _, infinite⟩
      exact ⟨.inr (.inr ⟨t, time, .inr ⟨vs, found, .inr ⟨is, read, .inl fails⟩⟩⟩), other⟩
    | millis whole counted infinite =>
      obtain ⟨⟨t, time⟩, vs, is, found, read⟩ := whole
      obtain ⟨fails, other⟩ := toInt_overflows_iff.mpr ⟨rfl, _, infinite⟩
      exact ⟨.inr (.inr ⟨t, time, .inr ⟨vs, found, .inr ⟨is, read, .inr ⟨_, counted, .inl fails⟩⟩⟩⟩),
        other⟩
    | span whole counted given large =>
      obtain ⟨⟨t, time⟩, vs, is, found, read⟩ := whole
      exact ⟨.inr (.inr ⟨t, time, .inr ⟨vs, found, .inr ⟨is, read, .inr ⟨_, counted,
        .inr ⟨_, given, .inl ⟨_, large, rfl⟩⟩⟩⟩⟩⟩), span_not_malformed _⟩

end Analysis

/-! ## Entries -/

/-- A fault that the store tells of. -/
def Fault.IsStore (f : Fault) : Prop :=
  ∃ text, f = .store text

namespace Store

/-- An entry that describes an analysis. -/
def Described (now : Time.Moment) (doc : Json) : Prop :=
  ∃ d a, doc = .obj d ∧ Analysis.ofJson now doc = .ok a

/-- The first entry that describes no analysis is one in which a number is too large. -/
def Overflows (now : Time.Moment) (docs : List Json) (f : Fault) : Prop :=
  ∃ before d after, docs = before ++ .obj d :: after ∧ (∀ u ∈ before, Described now u) ∧
    Analysis.Overflows now d f

theorem ofDocument_ok_iff {now : Time.Moment} {source : String} {index : Nat} {doc : Json}
    {a : Analysis} : ofDocument now source index doc = .ok a ↔
      (∃ d, doc = .obj d) ∧ Analysis.ofJson now doc = .ok a := by
  unfold ofDocument
  dsimp only
  split
  · next d =>
    cases Analysis.ofJson now (.obj d) with
    | ok b => simp
    | error f =>
      dsimp only
      split <;> simp
  · next h =>
    constructor
    · intro absurd
      cases absurd
    · rintro ⟨⟨d, rfl⟩, -⟩
      exact (h d rfl).elim

theorem ofDocument_leaks_iff {now : Time.Moment} {doc : Json} {f : Fault} (source : String)
    (index : Nat) : (ofDocument now source index doc = .error f ∧ ¬ f.IsStore) ↔
      ∃ d, doc = .obj d ∧ Analysis.Overflows now d f := by
  constructor
  · rintro ⟨h, other⟩
    unfold ofDocument at h
    dsimp only at h
    split at h
    · next d =>
      refine ⟨d, rfl, ?_⟩
      cases fails : Analysis.ofJson now (.obj d) with
      | ok a =>
        rw [fails] at h
        cases h
      | error g =>
        rw [fails] at h
        dsimp only at h
        split at h
        · cases h
          exact (other ⟨_, rfl⟩).elim
        · next kept =>
          cases h
          exact Analysis.ofJson_overflows_iff.mp ⟨fails, kept⟩
    · cases h
      exact (other ⟨_, rfl⟩).elim
  · rintro ⟨d, rfl, overflows⟩
    obtain ⟨fails, kept⟩ := Analysis.ofJson_overflows_iff.mpr overflows
    constructor
    · unfold ofDocument
      dsimp only
      rw [fails]
      exact if_neg kept
    · rintro ⟨text, rfl⟩
      cases overflows

/-- By induction on the entries: those before the first that fails are described. -/
theorem ofDocumentsFrom_leaks_iff {now : Time.Moment} {docs : List Json} {f : Fault}
    (source : String) (index : Nat) :
    (ofDocumentsFrom now source index docs = .error f ∧ ¬ f.IsStore) ↔ Overflows now docs f := by
  induction docs generalizing index with
  | nil =>
    constructor
    · rintro ⟨h, -⟩
      cases h
    · rintro ⟨before, d, after, split, -⟩
      simp at split
  | cons doc docs ih =>
    rw [ofDocumentsFrom]
    simp only [bind_error_iff]
    constructor
    · rintro ⟨h | ⟨a, read, h | ⟨as, -, h⟩⟩, other⟩
      · obtain ⟨d, rfl, overflows⟩ := (ofDocument_leaks_iff _ _).mp ⟨h, other⟩
        exact ⟨[], d, docs, rfl, by simp, overflows⟩
      · obtain ⟨before, d, after, rfl, fine, overflows⟩ := (ih (index + 1)).mp ⟨h, other⟩
        obtain ⟨⟨fs, rfl⟩, described⟩ := ofDocument_ok_iff.mp read
        refine ⟨.obj fs :: before, d, after, rfl, fun u hu => ?_, overflows⟩
        rcases List.mem_cons.mp hu with rfl | hu
        · exact ⟨fs, a, rfl, described⟩
        · exact fine u hu
      · cases h
    · rintro ⟨before, d, after, split, fine, overflows⟩
      cases before with
      | nil =>
        cases split
        obtain ⟨fails, other⟩ := (ofDocument_leaks_iff _ _).mpr ⟨d, rfl, overflows⟩
        exact ⟨.inl fails, other⟩
      | cons u before =>
        cases split
        rw [List.forall_mem_cons] at fine
        obtain ⟨fs, a, rfl, described⟩ := fine.1
        obtain ⟨fails, other⟩ := (ih (index + 1)).mpr ⟨before, d, after, rfl, fine.2, overflows⟩
        exact ⟨.inr ⟨a, ofDocument_ok_iff.mpr ⟨⟨fs, rfl⟩, described⟩, .inl fails⟩, other⟩

end Store

end LintHub
