import LintHub.Proofs.Report.Leaks

/-! # Reports in files

A report in a file is read as that of a run is. What goes wrong is told in a failed analysis, unless
the report leaks.
-/

namespace LintHub

/-! ## What is read depends on the files alone -/

theorem BanditReport.read_again {root : Option Path} {text : String} {w w' done : World}
    {p : List Issue × Option Int} (same : w'.disk = w.disk)
    (first : (read root text).outcome w = (.ok p, done)) :
    done.disk = w.disk ∧ ∃ done', (read root text).outcome w' = (.ok p, done') := by
  unfold read at *
  obtain ⟨doc, parsed, first⟩ := Act.lift_bind_ok_iff.mp first
  obtain ⟨d, fields, first⟩ := Act.lift_bind_ok_iff.mp first
  obtain ⟨errors, skipped, first⟩ := Act.lift_bind_ok_iff.mp first
  rcases outcome_reportSkipped errors w with ⟨f, fails, -, -⟩ | ⟨told, tells, disk, fine⟩
  · rw [Act.outcome_bind_error (Prod.ext fails rfl)] at first
    cases first
  rcases outcome_reportSkipped errors w' with ⟨f, -, -, odd⟩ | ⟨told', tells', disk', -⟩
  · exact (odd fine).elim
  rw [Act.outcome_bind_ok tells] at first
  rw [Act.outcome_bind_ok (Act.outcome_get told), disk] at first
  obtain ⟨found, results, first⟩ := Act.lift_bind_ok_iff.mp first
  obtain ⟨issues, read, first⟩ := Act.lift_bind_ok_iff.mp first
  obtain ⟨files, counted, first⟩ := Act.lift_bind_ok_iff.mp first
  cases first
  refine ⟨disk, told', Act.lift_bind_ok_iff.mpr ⟨doc, parsed, Act.lift_bind_ok_iff.mpr ⟨d, fields,
    Act.lift_bind_ok_iff.mpr ⟨errors, skipped, ?_⟩⟩⟩⟩
  rw [Act.outcome_bind_ok tells', Act.outcome_bind_ok (Act.outcome_get told'), disk', same]
  exact Act.lift_bind_ok_iff.mpr ⟨found, results, Act.lift_bind_ok_iff.mpr ⟨issues, read,
    Act.lift_bind_ok_iff.mpr ⟨files, counted, rfl⟩⟩⟩

namespace Bench

/-- Reading a report touches no file, and with the same files the same tool reads the same in it. -/
theorem readReport_again {b b' after : Bench} {root : Option Path} {text : String}
    {p : List Issue × Option Int} (tool : b'.runner.adapter = b.runner.adapter)
    (same : b'.world.disk = b.world.disk)
    (first : (readReport root text).outcome b = (.ok p, after)) :
    after.world.disk = b.world.disk ∧ ((readReport root text).outcome b').1 = .ok p := by
  unfold readReport at *
  rw [Act.outcome_bind_ok (outcome_adapter _)] at *
  rw [tool]
  cases adapter : b.runner.adapter with
  | ruff =>
    rw [adapter] at first
    rw [Act.outcome_bind_ok (Act.outcome_get _)] at *
    obtain ⟨issues, read, first⟩ := Act.lift_bind_ok_iff.mp first
    cases first
    refine ⟨rfl, ?_⟩
    rw [same, Act.outcome_bind, Act.outcome_except, read]
    rfl
  | bandit =>
    rw [adapter] at first
    obtain ⟨read, rfl⟩ := Prod.mk.inj first
    obtain ⟨kept, done', again⟩ := BanditReport.read_again (w := b.world) same (Prod.ext read rfl)
    exact ⟨kept, congrArg Prod.fst again⟩

/-! ## What reading a file promises -/

variable {b : Bench} {output source : String}

/-- Where the paths in a report are relative to. -/
def reportRoot (b : Bench) (source : String) : Option Path :=
  let source := if source.isEmpty then (b.runner.config.map (·.sourcePath)).getD "" else source
  if source.isEmpty then none else some (Path.ofText source)

/-- The issues and the number of files that a report in a file tells of. -/
def readingOf (b : Bench) (output source : String) : Act Bench (List Issue × Option Int) := do
  let text ← (b.world.disk.readText (Path.ofText output) : Except Fault String)
  readReport (b.reportRoot source) text

/-- What reading a report in a file promises: the same as a run does. -/
structure FileLaw (b : Bench) (output source : String) (e : Except Fault Analysis) : Prop where
  leaves : ∀ f, e = .error f ↔
    ∃ text, b.world.disk.readText (Path.ofText output) = .ok text ∧
      b.runner.adapter.Leaks b.world.disk (b.reportRoot source) text f
  read : ∀ issues count, ((readingOf b output source).outcome b).1 = .ok (issues, count) →
    ∃ a, e = .ok a ∧ a.success = true ∧ a.issues = issues
  told : ∀ f, ((readingOf b output source).outcome b).1 = .error f → ∀ a, e = .ok a →
    a.success = false ∧ a.errorMessage.isBlank = false

theorem readingOf_leaks_iff {f : Fault} :
    (((readingOf b output source).outcome b).1 = .error f ∧ f.Leaks) ↔
      ∃ text, b.world.disk.readText (Path.ofText output) = .ok text ∧
        b.runner.adapter.Leaks b.world.disk (b.reportRoot source) text f := by
  unfold readingOf
  rw [Act.lift_bind_error_iff]
  constructor
  · rintro ⟨unread | ⟨text, read, fails⟩, leaks⟩
    · exact ((readText_faults _ _).not_leaks leaks unread).elim
    · exact ⟨text, read, readReport_leaks_iff.mp ⟨fails, leaks⟩⟩
  · rintro ⟨text, read, leaks⟩
    obtain ⟨fails, leaks⟩ := readReport_leaks_iff.mpr leaks
    exact ⟨.inr ⟨text, read, fails⟩, leaks⟩

theorem readingOf_faults (b : Bench) (output source : String) :
    Act.Faults Fault.OfReport (readingOf b output source) :=
  .bind (.lift (readText_faults _ _).report) fun _ => readReport_faults _ _

theorem outcome_analysisOfFile (b : Bench) (output source : String) :
    ((analysisOfFile output source).outcome b).1 =
      match ((readingOf b output source).outcome b).1 with
      | .ok (issues, files) => .ok { Analysis.new b.world.stamp (.str b.runner.adapter.name) with
          issues, filesAnalyzed := files.getD 0 }
      | .error f =>
        if f.isOneOf reportFaults then
          .ok (Analysis.failed b.world.stamp b.runner.adapter.name
            s!"Could not parse {output}: {f.message}")
        else .error f := by
  unfold analysisOfFile
  rw [Act.outcome_bind_ok (Act.outcome_get b)]
  show (((b.readingOf output source).attempt >>= _ : Act Bench Analysis).outcome b).1 = _
  rw [Act.outcome_bind_ok (Act.outcome_attempt _ _)]
  generalize (b.readingOf output source).outcome b = reading
  rcases reading with ⟨f | ⟨issues, files⟩, after⟩
  · dsimp only
    split <;> rfl
  · rfl

theorem analysisOfFile_law (b : Bench) (output source : String) :
    FileLaw b output source ((analysisOfFile output source).outcome b).1 := by
  rw [outcome_analysisOfFile]
  refine ⟨fun f => ?_, fun issues count reads => ?_, fun f fails a answer => ?_⟩
  · rw [← readingOf_leaks_iff]
    have faults := readingOf_faults b output source b
    cases reading : ((b.readingOf output source).outcome b).1 with
    | ok p => simp
    | error g =>
      dsimp only
      by_cases caught : g.isOneOf reportFaults = true
      · rw [if_pos caught]
        refine ⟨fun h => (nomatch h), fun ⟨same, leaks⟩ => ?_⟩
        cases same
        exact (leaks.not_caught caught).elim
      · rw [if_neg caught]
        constructor
        · intro same
          cases same
          exact ⟨rfl, (faults f reading).resolve_left caught⟩
        · rintro ⟨same, -⟩
          cases same
          rfl
  · rw [reads]
    exact ⟨_, rfl, rfl, rfl⟩
  · rw [fails] at answer
    dsimp only at answer
    split at answer
    · cases answer
      exact ⟨rfl, by simp [Analysis.failed, Json.isBlank, toString]⟩
    · cases answer

end Bench

end LintHub
