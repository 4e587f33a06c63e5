import LintHub.Proofs.Files.Kept
import LintHub.Proofs.Json.Line
import LintHub.Proofs.Report.File
import LintHub.Proofs.Run.Frame
import LintHub.Proofs.Run.Law

/-! # Failures are told

Ordinary failures of a tool are answers and no faults, in a run as in the reading of a file. A report
about an infinite row is one that is not told of.
-/

namespace LintHub

namespace Execution

open Bench

/-- Ruff as it comes, and a program that prints a report after some time. -/
def printing (report : String) (elapsed : Binary64) : Bench where
  runner := { Runner.new .ruff with
    config := some (.new .default .ruff "ruff"), path := some "/usr/bin/ruff" }
  world := { World.bare .default with runs := [⟨false, elapsed, none, .exits 0 report ""⟩] }

def aboutFile : Request :=
  ⟨.str "a.py", .str "", [], [], []⟩

/-- What ruff is started with. -/
def checkFile : List String :=
  ["/usr/bin/ruff", "check", "a.py", "--output-format", "json", "--no-cache"]

section printing

variable (report : String) (elapsed : Binary64)

theorem printing_prepared :
    Prepared (printing report elapsed) (.new .default .ruff "ruff") aboutFile checkFile :=
  ⟨rfl, rfl, _, rfl, rfl⟩

theorem printing_launches : Launches (printing report elapsed) (.new .default .ruff "ruff")
    aboutFile "/usr/bin/ruff" (.ofText "a.py") :=
  ⟨⟨rfl, rfl, by decide, rfl⟩, [], Disk.sources_absent (by decide) rfl _⟩

theorem printing_ends : ∃ ran,
    (runProgram worldView checkFile (Config.new .default .ruff "ruff").timeout).outcome
        ((printing report elapsed).begun "/usr/bin/ruff" checkFile) = (.ok ⟨0, report, ""⟩, ran) ∧
      ran.runner.adapter = .ruff ∧ ran.world.clock = Binary64.zero.add elapsed ∧
      ran.world.disk = .empty [] :=
  ⟨_, rfl, rfl, rfl, rfl⟩

/-- Ruff prints its report, which is read as it is if it is not to be kept. -/
theorem outcome_judge_ruff {ran : Bench} {c : Config} {r : Request} (source : Path)
    (done : Finished) (ruff : ran.runner.adapter = .ruff)
    (unkept : (c.targetFor r).outputFile.isBlank = true) :
    (judge c r source done).outcome ran =
      ((RuffReport.issuesOf ran.world.disk (some source) done.stdout).map (·, none), ran) := by
  have asked : adapter.outcome ran = (.ok .ruff, ran) := by rw [outcome_adapter, ruff]
  have printed : (reportText c r done.stdout).outcome ran = (.ok done.stdout, ran) := by
    unfold reportText
    rw [Act.outcome_bind_ok asked]
    dsimp only
    rw [unkept]
    rfl
  unfold judge Bench.readReport
  rw [Act.outcome_bind_ok printed, Act.outcome_bind_ok asked,
    Act.outcome_bind_ok (Act.outcome_get ran), Act.outcome_bind, Act.outcome_except]
  cases RuffReport.issuesOf ran.world.disk (some source) done.stdout <;> rfl

theorem printing_judged {f : Fault} (leaks : ∀ disk root, RuffReport.Leaks disk root report f) :
    ((execute View.whole aboutFile .nobody).outcome (printing report elapsed)).1 = .error f ∧
      ((execute View.whole aboutFile .nobody).outcome (printing report elapsed)).2.world.clock =
        Binary64.zero.add elapsed := by
  obtain ⟨ran, ends, ruff, clock, -⟩ := printing_ends report elapsed
  obtain ⟨fileCount, whole⟩ := (printing_launches report elapsed).concludes
    (printing_prepared report elapsed) ends rfl
  obtain ⟨fails, leaks⟩ := RuffReport.issuesOf_leaks_iff.mpr
    (leaks ran.world.disk (some (.ofText "a.py")))
  have unkept : ((Config.new .default .ruff "ruff").targetFor aboutFile).outputFile.isBlank = true :=
    rfl
  have judged := outcome_judge_ruff (.ofText "a.py") ⟨0, report, ""⟩ ruff unkept
  rw [whole, outcome_conclude, judged, fails]
  dsimp only [Except.map]
  rw [if_neg (show ¬ f.isOneOf reportFaults = true from leaks.not_caught)]
  exact ⟨rfl, clock⟩

end printing

/-- A report about an infinite row. -/
def infiniteRow : String :=
  "[\x7b\"location\":\x7b\"row\":Infinity\x7d\x7d]"

theorem infiniteRow_read : Json.read infiniteRow =
    .ok (.arr [.obj [("location", .obj [("row", .float (.infinite false))])]]) := by
  have row : Json.SpellsField "\"row\":Infinity".toList ("row", .float (.infinite false)) :=
    ⟨[], _, Json.isGap_nil, rfl, Json.spells_float (.infinite false)⟩
  have place : Json.SpellsField "\"location\":\x7b\"row\":Infinity\x7d".toList
      ("location", .obj [("row", .float (.infinite false))]) :=
    ⟨[], _, Json.isGap_nil, rfl, Json.spells_obj Json.isGap_nil Json.isGap_nil (.cons row .nil)
      (by simp) (by simp [Fields.names]) Json.isGap_nil⟩
  have finding := Json.spells_obj Json.isGap_nil Json.isGap_nil (.cons place .nil) (by simp)
    (by simp [Fields.names]) Json.isGap_nil
  have report := Json.spells_arr Json.isGap_nil Json.isGap_nil (.cons finding .nil) (by simp)
    Json.isGap_nil
  exact Json.read_of_spells report Json.isGap_nil rfl

theorem infiniteRow_leaks (disk : Disk) (root : Option Path) :
    RuffReport.Leaks disk root infiniteRow .infiniteInteger := by
  exact ⟨[], _, [], infiniteRow_read, by simp, .row rfl rfl rfl⟩

theorem infiniteRow_measured : Measured .zero
    ((execute View.whole aboutFile .nobody).outcome (printing infiniteRow .zero)).2.world.clock := by
  rw [(printing_judged infiniteRow .zero infiniteRow_leaks).2]
  decide +kernel

theorem infiniteRow_escapes : Escapes (printing infiniteRow .zero) (.new .default .ruff "ruff")
    aboutFile checkFile .infiniteInteger :=
  .report (printing_launches infiniteRow .zero) rfl rfl rfl (infiniteRow_leaks _ _)

/-- Whatever a program does, and whatever stands in a file: what goes wrong is told, unless it is one
of the faults that leave a run. -/
theorem failures_are_told (b : Bench) (r : Request) :
    (∀ c texts, Prepared b c r texts →
      Measured b.world.clock ((execute View.whole r .nobody).outcome b).2.world.clock →
      RunLaw b c r texts ((execute View.whole r .nobody).outcome b).1) ∧
    ∀ output source, FileLaw b output source ((analysisOfFile output source).outcome b).1 :=
  ⟨fun _ _ => execute_law, analysisOfFile_law b⟩

/-- The report takes the run with it. -/
theorem failures_are_told_infinite :
    ((execute View.whole aboutFile .nobody).outcome (printing infiniteRow .zero)).1 =
        .error .infiniteInteger ∧
      FileLaw (printing infiniteRow .zero) "out.json" ""
        ((analysisOfFile "out.json" "").outcome (printing infiniteRow .zero)).1 := by
  obtain ⟨runs, files⟩ := failures_are_told (printing infiniteRow .zero) aboutFile
  have law := runs _ _ (printing_prepared infiniteRow .zero) infiniteRow_measured
  exact ⟨(law.leaves _).mpr infiniteRow_escapes, files "out.json" ""⟩

/-- Not even if every program ends, or is late, or cannot be started because of the system. -/
theorem not_every_failure_is_told :
    ¬ ∀ (b : Bench) (c : Config) (r : Request) (texts : List String), Prepared b c r texts →
      Measured b.world.clock ((execute View.whole r .nobody).outcome b).2.world.clock →
      (∀ path f, (executablePath.outcome b).1 = .ok path →
        ((runProgram worldView texts c.timeout).outcome (b.begun path texts)).1 = .error f →
        f.isOneOf [.timeout, .system] = true) →
      ∃ a, ((execute View.whole r .nobody).outcome b).1 = .ok a := by
  intro claim
  obtain ⟨a, told⟩ := claim (printing infiniteRow .zero) _ aboutFile _
    (printing_prepared infiniteRow .zero) infiniteRow_measured
    fun path f found fails => by
      cases found
      cases fails
  cases (printing_judged infiniteRow .zero infiniteRow_leaks).1.symm.trans told

end Execution

end LintHub
