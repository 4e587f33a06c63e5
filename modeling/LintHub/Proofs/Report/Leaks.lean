import LintHub.Proofs.Report.Faults

/-! # Reports that leak

Which reports are read with a fault that is not told in a failed analysis: the first finding that
cannot be read stands at an infinite line or column, or in a file behind a loop of links.
-/

namespace LintHub

open Fault

theorem toInt_leaks_iff {v : Json} {f : Fault} :
    (v.toInt = .error f ∧ f.Leaks) ↔
      f = .infiniteInteger ∧ ∃ negative, v = .float (.infinite negative) := by
  constructor
  · rintro ⟨h, leaks⟩
    exact (toInt_error h).resolve_left fun malformed => leaks.not_caught malformed.caught
  · rintro ⟨rfl, negative, rfl⟩
    exact ⟨rfl, .infinite⟩

theorem Faults.not_leaks {α : Type} {e : Except Fault α} {f : Fault} (he : Faults Caught e)
    (leaks : f.Leaks) : e ≠ .error f :=
  fun h => leaks.not_caught (he f h)

theorem relativePath_leaks {disk : Disk} {name : Json} {root : Option Path} {f : Fault}
    (h : relativePath disk name root = .error f) (leaks : f.Leaks) : ∃ path, f = .linkLoop path := by
  rcases relativePath_faults _ _ _ f h with caught | loop
  · exact (leaks.not_caught caught).elim
  · exact loop

namespace RuffReport

/-- A diagnostic whose place cannot be told. -/
inductive Unplaced (disk : Disk) (root : Option Path) : Json → Fault → Prop where
  | loop {d : Fields} {path : String}
    (file : relativePath disk (d.valueOr "filename" (.str "")) root = .error (.linkLoop path)) :
    Unplaced disk root (.obj d) (.linkLoop path)
  | row {d place : Fields} {file : String} {negative : Bool}
    (file : relativePath disk (d.valueOr "filename" (.str "")) root = .ok file)
    (location : d.valueOr "location" (.obj []) = .obj place)
    (row : place.valueOr "row" (.int 0) = .float (.infinite negative)) :
    Unplaced disk root (.obj d) .infiniteInteger
  | column {d place : Fields} {file : String} {line : Int} {negative : Bool}
    (file : relativePath disk (d.valueOr "filename" (.str "")) root = .ok file)
    (location : d.valueOr "location" (.obj []) = .obj place)
    (row : (place.valueOr "row" (.int 0)).toInt = .ok line)
    (column : place.valueOr "column" (.int 0) = .float (.infinite negative)) :
    Unplaced disk root (.obj d) .infiniteInteger

theorem issueOf_leaks_iff {disk : Disk} {root : Option Path} {v : Json} {f : Fault} :
    (issueOf disk root v = .error f ∧ f.Leaks) ↔ Unplaced disk root v f := by
  constructor
  · rintro ⟨h, leaks⟩
    have fields (v : Json) : v.fieldsFor "get" ≠ .error f := (fieldsFor_faults _ v).not_leaks leaks
    have code (v : Json) : classifyFinding v ≠ .error f := (classifyFinding_faults v).not_leaks leaks
    unfold issueOf at h
    simp only [bind_error_iff, fields, code, false_or, fieldsFor_eq_ok] at h
    obtain ⟨d, rfl, h | ⟨file, hf, place, location, h⟩⟩ := h
    · obtain ⟨path, rfl⟩ := relativePath_leaks h leaks
      exact .loop h
    · rcases h with h | ⟨line, row, h⟩
      · obtain ⟨rfl, negative, row⟩ := toInt_leaks_iff.mp ⟨h, leaks⟩
        exact .row hf location row
      · rcases h with h | ⟨column, -, kind, -, fix, -, h⟩
        · obtain ⟨rfl, negative, column⟩ := toInt_leaks_iff.mp ⟨h, leaks⟩
          exact .column hf location row column
        · cases h
  · intro h
    unfold issueOf
    cases h with
    | loop file =>
      refine ⟨?_, .loop _⟩
      simp only [bind_error_iff, fieldsFor_eq_ok]
      exact .inr ⟨_, rfl, .inl file⟩
    | row file location row =>
      refine ⟨?_, .infinite⟩
      simp only [bind_error_iff, fieldsFor_eq_ok]
      exact .inr ⟨_, rfl, .inr ⟨_, file, .inr ⟨_, location, .inl (by rw [row]; rfl)⟩⟩⟩
    | column file location row column =>
      refine ⟨?_, .infinite⟩
      simp only [bind_error_iff, fieldsFor_eq_ok]
      exact .inr ⟨_, rfl, .inr ⟨_, file, .inr ⟨_, location, .inr ⟨_, row,
        .inl (by rw [column]; rfl)⟩⟩⟩⟩

/-- The diagnostics of a report are read up to one whose place cannot be told. -/
def Leaks (disk : Disk) (root : Option Path) (text : String) (f : Fault) : Prop :=
  ∃ before v after, Json.read (if text.isEmpty then "[]" else text) = .ok (.arr (before ++ v :: after)) ∧
    (∀ u ∈ before, ∃ i, issueOf disk root u = .ok i) ∧ Unplaced disk root v f

theorem issuesOf_leaks_iff {disk : Disk} {root : Option Path} {text : String} {f : Fault} :
    (issuesOf disk root text = .error f ∧ f.Leaks) ↔ Leaks disk root text f := by
  unfold issuesOf Leaks
  constructor
  · rintro ⟨h, leaks⟩
    rcases bind_error_iff.mp h with h | ⟨doc, read, h⟩
    · exact ((Faults.mapError fun e => caught_json e).not_leaks leaks h).elim
    · cases doc with
      | arr items =>
        obtain ⟨before, v, after, rfl, fine, fails⟩ := mapM_error_iff.mp h
        exact ⟨before, v, after, mapError_ok_iff.mp read, fine, issueOf_leaks_iff.mp ⟨fails, leaks⟩⟩
      | _ =>
        cases h
        cases leaks
  · rintro ⟨before, v, after, read, fine, unplaced⟩
    obtain ⟨fails, leaks⟩ := issueOf_leaks_iff.mpr unplaced
    refine ⟨bind_error_iff.mpr (.inr ⟨_, mapError_ok_iff.mpr read, ?_⟩), leaks⟩
    exact mapM_error_iff.mpr ⟨before, v, after, rfl, fine, fails⟩

end RuffReport

namespace BanditReport

theorem columnOf_leaks_iff {d : Fields} {f : Fault} :
    (columnOf d = .error f ∧ f.Leaks) ↔
      f = .infiniteInteger ∧ ∃ negative, d.value "col_offset" = .float (.infinite negative) := by
  unfold columnOf
  split
  · next missing => simp [missing]
  · rw [map_error_iff, toInt_leaks_iff]

/-- A finding whose place cannot be told. -/
inductive Unplaced (disk : Disk) (root : Option Path) : Json → Fault → Prop where
  | loop {d : Fields} {path : String}
    (file : relativePath disk (.str (d.valueOr "filename" (.str "")).display) root =
      .error (.linkLoop path)) :
    Unplaced disk root (.obj d) (.linkLoop path)
  | line {d : Fields} {file : String} {negative : Bool}
    (file : relativePath disk (.str (d.valueOr "filename" (.str "")).display) root = .ok file)
    (line : d.valueOr "line_number" (.int 0) = .float (.infinite negative)) :
    Unplaced disk root (.obj d) .infiniteInteger
  | column {d : Fields} {file : String} {line : Int} {negative : Bool}
    (file : relativePath disk (.str (d.valueOr "filename" (.str "")).display) root = .ok file)
    (line : (d.valueOr "line_number" (.int 0)).toInt = .ok line)
    (column : d.value "col_offset" = .float (.infinite negative)) :
    Unplaced disk root (.obj d) .infiniteInteger

theorem issueOf_leaks_iff {disk : Disk} {root : Option Path} {v : Json} {f : Fault} :
    (issueOf disk root v = .error f ∧ f.Leaks) ↔ Unplaced disk root v f := by
  constructor
  · rintro ⟨h, leaks⟩
    have fields (v : Json) : v.fieldsFor "get" ≠ .error f := (fieldsFor_faults _ v).not_leaks leaks
    have upper (v : Json) : v.textFor "upper" ≠ .error f := (textFor_faults _ v).not_leaks leaks
    unfold issueOf at h
    simp only [bind_error_iff, fields, upper, false_or, fieldsFor_eq_ok] at h
    obtain ⟨d, rfl, h | ⟨file, hf, h | ⟨line, hl, h | ⟨column, -, severity, -, h⟩⟩⟩⟩ := h
    · obtain ⟨path, rfl⟩ := relativePath_leaks h leaks
      exact .loop h
    · obtain ⟨rfl, negative, line⟩ := toInt_leaks_iff.mp ⟨h, leaks⟩
      exact .line hf line
    · obtain ⟨rfl, negative, column⟩ := columnOf_leaks_iff.mp ⟨h, leaks⟩
      exact .column hf hl column
    · cases h
  · intro h
    unfold issueOf
    cases h with
    | loop file =>
      refine ⟨?_, .loop _⟩
      simp only [bind_error_iff, fieldsFor_eq_ok]
      exact .inr ⟨_, rfl, .inl file⟩
    | line file line =>
      refine ⟨?_, .infinite⟩
      simp only [bind_error_iff, fieldsFor_eq_ok]
      exact .inr ⟨_, rfl, .inr ⟨_, file, .inl (by rw [line]; rfl)⟩⟩
    | column file line column =>
      refine ⟨?_, .infinite⟩
      simp only [bind_error_iff, fieldsFor_eq_ok]
      exact .inr ⟨_, rfl, .inr ⟨_, file, .inr ⟨_, line,
        .inl (columnOf_leaks_iff.mpr ⟨rfl, _, column⟩).1⟩⟩⟩

/-- Telling of the files that could not be scanned touches no file, and it is done to the end if each
of them is told of in an object. -/
theorem outcome_reportSkipped (errors : List Json) (w : World) :
    (∃ f, ((errors.forM reportSkipped).outcome w).1 = .error f ∧ f.Caught ∧
        ¬ ∀ e ∈ errors, ∃ d, e = .obj d) ∨
      ∃ w', (errors.forM reportSkipped).outcome w = (.ok ⟨⟩, w') ∧ w'.disk = w.disk ∧
        ∀ e ∈ errors, ∃ d, e = .obj d := by
  induction errors generalizing w with
  | nil => exact .inr ⟨w, rfl, rfl, by simp⟩
  | cons e errors ih =>
    have step : (List.forM (e :: errors) reportSkipped).outcome w =
        ((reportSkipped e >>= fun _ => errors.forM reportSkipped) : Act World PUnit).outcome w := rfl
    rw [step]
    cases e with
    | obj d =>
      obtain ⟨w₁, told, disk⟩ : ∃ w₁, (reportSkipped (.obj d)).outcome w = (.ok (), w₁) ∧
          w₁.disk = w.disk := ⟨_, rfl, rfl⟩
      rw [Act.outcome_bind_ok told]
      rcases ih w₁ with ⟨f, fails, caught, odd⟩ | ⟨w₂, ends, same, fine⟩
      · exact .inl ⟨f, fails, caught, fun all => odd fun e he => all e (List.mem_cons_of_mem _ he)⟩
      · refine .inr ⟨w₂, ends, same.trans disk, fun e he => ?_⟩
        rcases List.mem_cons.mp he with rfl | he
        · exact ⟨d, rfl⟩
        · exact fine e he
    | _ =>
      refine .inl ⟨_, rfl, rfl, fun all => ?_⟩
      obtain ⟨d, hd⟩ := all _ (List.mem_cons_self ..)
      cases hd

theorem filesOf_faults (d : Fields) : Faults Caught (filesOf d) :=
  .bind (items_faults _) fun _ => .pure _

/-- The findings of a report are read up to one whose place cannot be told. The files that could not
be scanned have been told of by then. -/
def Leaks (disk : Disk) (root : Option Path) (text : String) (f : Fault) : Prop :=
  ∃ (d : Fields) (errors before : List Json) (v : Json) (after : List Json),
    Json.read (if text.isEmpty then "\x7b\x7d" else text) = .ok (.obj d) ∧
    (d.valueOr "errors" (.arr [])).items = .ok errors ∧ (∀ e ∈ errors, ∃ fields, e = .obj fields) ∧
    (d.valueOr "results" (.arr [])).items = .ok (before ++ v :: after) ∧
    (∀ u ∈ before, ∃ i, issueOf disk root u = .ok i) ∧ Unplaced disk root v f

theorem read_leaks_iff {root : Option Path} {text : String} {w : World} {f : Fault} :
    (((read root text).outcome w).1 = .error f ∧ f.Leaks) ↔ Leaks w.disk root text f := by
  unfold read Leaks
  simp only [Act.lift_bind_error_iff]
  constructor
  · rintro ⟨h, leaks⟩
    have fields (v : Json) : v.fieldsFor "get" ≠ .error f := (fieldsFor_faults _ v).not_leaks leaks
    have items (v : Json) : v.items ≠ .error f := (items_faults v).not_leaks leaks
    have files (d : Fields) : filesOf d ≠ .error f := (filesOf_faults d).not_leaks leaks
    simp only [fields, items, false_or, fieldsFor_eq_ok] at h
    obtain h | ⟨doc, read, d, rfl, errors, skipped, h⟩ := h
    · exact ((Faults.mapError caught_json).not_leaks leaks h).elim
    · rcases outcome_reportSkipped errors w with
        ⟨g, fails, caught, -⟩ | ⟨w', told, disk, fine⟩
      · rw [Act.outcome_bind_error (Prod.ext fails rfl)] at h
        cases h
        exact (leaks.not_caught caught).elim
      · rw [Act.outcome_bind_ok told, Act.outcome_bind_ok (Act.outcome_get w')] at h
        simp only [Act.lift_bind_error_iff, items, files, false_or] at h
        obtain ⟨found, results, h | ⟨issues, -, count, -, h⟩⟩ := h
        · obtain ⟨before, v, after, rfl, readable, fails⟩ := mapM_error_iff.mp h
          rw [disk] at readable fails
          exact ⟨d, errors, before, v, after, mapError_ok_iff.mp read, skipped, fine, results,
            readable, issueOf_leaks_iff.mp ⟨fails, leaks⟩⟩
        · cases h
  · rintro ⟨d, errors, before, v, after, read, skipped, fine, results, readable, unplaced⟩
    obtain ⟨fails, leaks⟩ := issueOf_leaks_iff.mpr unplaced
    refine ⟨.inr ⟨_, mapError_ok_iff.mpr read, .inr ⟨d, rfl, .inr ⟨errors, skipped, ?_⟩⟩⟩, leaks⟩
    rcases outcome_reportSkipped errors w with
      ⟨g, -, -, odd⟩ | ⟨w', told, disk, -⟩
    · exact (odd fine).elim
    · rw [Act.outcome_bind_ok told, Act.outcome_bind_ok (Act.outcome_get w')]
      simp only [Act.lift_bind_error_iff]
      refine .inr ⟨_, results, .inl (mapM_error_iff.mpr ⟨before, v, after, rfl, ?_, ?_⟩)⟩
      · rwa [disk]
      · rwa [disk]

end BanditReport

/-- A report of a tool leaks. -/
def Adapter.Leaks : Adapter → Disk → Option Path → String → Fault → Prop
  | .ruff => RuffReport.Leaks
  | .bandit => BanditReport.Leaks

theorem Bench.outcome_adapter (b : Bench) :
    Bench.adapter.outcome b = (.ok b.runner.adapter, b) := rfl

theorem Bench.readReport_leaks_iff {b : Bench} {root : Option Path} {text : String} {f : Fault} :
    (((readReport root text).outcome b).1 = .error f ∧ f.Leaks) ↔
      b.runner.adapter.Leaks b.world.disk root text f := by
  unfold readReport
  rw [Act.outcome_bind_ok (outcome_adapter b)]
  cases b.runner.adapter with
  | ruff =>
    rw [Act.outcome_bind_ok (Act.outcome_get b), Act.lift_bind_error_iff]
    simpa [Adapter.Leaks] using RuffReport.issuesOf_leaks_iff
  | bandit => exact BanditReport.read_leaks_iff

end LintHub
