import LintHub.Proofs.Files.Spelling
import LintHub.Proofs.Json.Newlines
import LintHub.Proofs.Report.File
import LintHub.Proofs.Run.Calm
import LintHub.Proofs.Run.Success
import LintHub.Proofs.Run.Told
import LintHub.Proofs.Text.Utf8

/-! # Reports that are read again

The file that a run left is read to the same issues as in the run. Whatever the text of the report is,
reading it back changes its line ends only, which no document depends on.
-/

namespace LintHub

/-! ## What a written report is read as -/

/-- A report of ruff says the same with its line ends unified, an empty one too. -/
theorem RuffReport.issuesOf_unified {disk : Disk} {root : Option Path} {text : String}
    {issues : List Issue} (read : issuesOf disk root text = .ok issues) :
    issuesOf disk root (String.ofList (Text.unifyNewlines text.toList)) = .ok issues := by
  by_cases empty : text.toList = []
  · rw [empty, Text.unifyNewlines_eq_nil.mpr rfl, ← empty, String.ofList_toList]
    exact read
  · have given : text.isEmpty = false := by simpa [String.isEmpty_iff] using empty
    have given' : (String.ofList (Text.unifyNewlines text.toList)).isEmpty = false := by
      simpa [String.isEmpty_iff, ← String.toList_eq_nil_iff, Text.unifyNewlines_eq_nil] using empty
    unfold issuesOf at *
    rw [given] at read
    rw [given']
    obtain ⟨doc, parsed, read⟩ := bind_ok_iff.mp read
    have parsed' := Json.read_unified (mapError_ok_iff.mp parsed)
    exact bind_ok_iff.mpr ⟨doc, mapError_ok_iff.mpr parsed', read⟩

/-- A text that was written is read with its line ends unified. -/
theorem Disk.readText_writeText {d d' : Disk} {p : Path} {s : String}
    (written : d.writeText p s = .ok d') :
    d'.readText p = .ok (String.ofList (Text.unifyNewlines s.toList)) := by
  unfold readText
  refine bind_ok_iff.mpr ⟨_, readBytes_writeBytes written, ?_⟩
  rw [Text.decodeUtf8_encodeUtf8]
  rfl

namespace Bench

theorem readReport_unified {b : Bench} {root : Option Path} {text : String}
    {p : List Issue × Option Int} (ruff : b.runner.adapter = .ruff)
    (read : ((readReport root text).outcome b).1 = .ok p) :
    ((readReport root (String.ofList (Text.unifyNewlines text.toList))).outcome b).1 = .ok p := by
  unfold readReport at *
  rw [Act.outcome_bind_ok (outcome_adapter b), ruff] at *
  rw [Act.outcome_bind_ok (Act.outcome_get b)] at *
  obtain ⟨issues, found, read⟩ := Act.lift_bind_ok_iff.mp (Prod.ext read rfl)
  rw [Act.outcome_bind_ok (by rw [RuffReport.issuesOf_unified found]; rfl)]
  exact congrArg Prod.fst read

/-- The file that is there after a report was taken holds the report, with its line ends unified
where ruff printed it. -/
theorem Taken.filed {ran kept : Bench} {output printed text : String} {adapter : Adapter}
    (taken : Taken ran (.str output) printed adapter text kept) (given : output ≠ "")
    (there : kept.world.disk.exists (Path.ofText output) = .ok true) :
    ∃ again, kept.world.disk.readText (Path.ofText output) = .ok again ∧
      (again = text ∨ adapter = .ruff ∧ again = String.ofList (Text.unifyNewlines text.toList)) := by
  cases taken with
  | unkept _ blank => exact (given (by simpa [Json.isBlank] using blank)).elim
  | kept _ path written =>
    cases path
    exact ⟨_, Disk.readText_writeText written, .inr ⟨rfl, rfl⟩⟩
  | missing _ path missing =>
    cases path
    cases there.symm.trans missing
  | found _ path _ read =>
    cases path
    exact ⟨_, read, .inl rfl⟩

/-- What is read in the text of a file, relative to a source that is given. -/
theorem outcome_readingOf {b : Bench} {output source text : String} (named : source ≠ "")
    (read : b.world.disk.readText (Path.ofText output) = .ok text) :
    (readingOf b output source).outcome b =
      (readReport (some (Path.ofText source)) text).outcome b := by
  have named : source.isEmpty = false := by simpa [String.isEmpty_iff] using named
  have root : b.reportRoot source = some (Path.ofText source) := by
    unfold reportRoot
    simp [named]
  unfold readingOf
  rw [root, Act.outcome_bind_ok (by rw [read]; rfl)]

end Bench

namespace Execution

open Bench

variable {b b' : Bench} {c : Config} {r : Request} {a : Analysis}

/-- The report of a run that went well is read from the file that it left as it was read in the run:
by any tool of the kind on the same files, to the same issues, and to the number of files if it
states one. -/
theorem replay_agrees {output source : String} (configured : b.runner.config = some c)
    (analysed : (c.targetFor r).sourcePath = .str source) (named : source ≠ "")
    (wanted : (c.targetFor r).outputFile = .str output) (given : output ≠ "")
    (answer : ((execute View.whole r .nobody).outcome b).1 = .ok a) (well : a.success = true)
    (there : ((execute View.whole r .nobody).outcome b).2.world.disk.exists (Path.ofText output) =
      .ok true) (b' : Bench) (tool : b'.runner.adapter = b.runner.adapter)
    (same : b'.world.disk = ((execute View.whole r .nobody).outcome b).2.world.disk) :
    ∃ a' count, ((analysisOfFile output source).outcome b').1 = .ok a' ∧ a'.success = true ∧
      a'.issues = a.issues ∧
      ((readingOf b' output source).outcome b').1 = .ok (a.issues, count) ∧
      ∀ n, count = some n → a'.filesAnalyzed = n ∧ a.filesAnalyzed = n := by
  obtain ⟨course⟩ := execute_course configured answer well
  obtain ⟨text, kept, taken, tool', read⟩ := course.taken
  have untouched := (readReport_again (b := kept) rfl rfl read).1
  have files : b'.world.disk = kept.world.disk := by rw [same, course.disk, untouched]
  obtain ⟨-, again⟩ := readReport_again (tool.trans tool'.symm) files read
  have root : Path.ofText source = course.source := by
    have named := course.launches.named
    rw [analysed] at named
    exact Except.ok.inj named
  rw [← root] at again
  rw [wanted] at taken
  have reads : ((readingOf b' output source).outcome b').1 = .ok (a.issues, course.count) := by
    obtain ⟨text', filed, unified⟩ := taken.filed given (by rw [← files, same]; exact there)
    rw [outcome_readingOf named (by rw [files]; exact filed)]
    rcases unified with rfl | ⟨ruff, rfl⟩
    · exact again
    · exact readReport_unified (tool.trans ruff) again
  have told := outcome_analysisOfFile b' output source
  rw [reads] at told
  refine ⟨_, course.count, told, rfl, rfl, reads, fun n states => ?_⟩
  have counted := course.counted
  rw [states] at counted ⊢
  exact ⟨rfl, counted⟩

/-- A request to keep the report. -/
def keepReport : Request :=
  ⟨.str "a.py", .str "out.json", [], [], []⟩

/-- A report of one finding whose lines end in two characters. -/
def twoLines : String :=
  "[\r\n\x7b\"filename\":\"./pkg/a.py\"\x7d]\r\n"

/-- The files after the report was kept. -/
def keptDisk : Disk :=
  (Disk.empty []).put ["out.json"] (.file (Text.encodeUtf8 twoLines) false)

theorem outJson_arrives :
    (Disk.empty []).arrive true "out.json" = .ok ⟨["out.json"], none⟩ :=
  Disk.arrive_name (d := .empty []) (s := "out.json") true (by decide) fun target h => nomatch h

theorem keptDisk_written :
    (Disk.empty []).writeText (.ofText "out.json") twoLines = .ok keptDisk :=
  bind_ok_iff.mpr ⟨_, outJson_arrives, rfl⟩

theorem keptDisk_exists : keptDisk.exists (.ofText "out.json") = .ok true := by
  have arrives : keptDisk.arrive true (Path.ofText "out.json").text = _ :=
    Disk.arrive_put outJson_arrives (.inl rfl)
  unfold Disk.exists Disk.status Disk.open?
  rw [arrives]
  rfl

theorem aboutA_spelled : Json.Spells "\x7b\"filename\":\"./pkg/a.py\"\x7d".toList
    (.obj [("filename", .str "./pkg/a.py")]) := by
  have file : Json.SpellsField "\"filename\":\"./pkg/a.py\"".toList
      ("filename", .str "./pkg/a.py") :=
    ⟨[], _, Json.isGap_nil, rfl, Json.spells_text "./pkg/a.py"⟩
  exact Json.spells_obj Json.isGap_nil Json.isGap_nil (.cons file .nil) (by simp)
    (by simp [Fields.names]) Json.isGap_nil

theorem twoLines_parsed : Json.read twoLines = .ok (.arr [.obj [("filename", .str "./pkg/a.py")]]) := by
  have lineEnd : Json.IsGap ['\r', '\n'] := by simp [Json.IsGap, Json.isSpace]
  have report := Json.spells_arr Json.isGap_nil Json.isGap_nil (.cons aboutA_spelled .nil) (by simp)
    lineEnd
  exact Json.read_of_spells report lineEnd rfl

/-- The file that was checked is not there, so that its directory is the one that paths are relative
to. -/
theorem keptDisk_holds : Holds keptDisk (.ofText "a.py") [] := by
  refine .file (Path.normal_ofText "a.py") ?_ (Disk.arrive_dot keptDisk true)
  unfold Disk.isDirectory
  rw [Disk.status_name (e := none) (by decide) rfl (by simp)]
  rfl

theorem twoLines_read :
    ∃ i, RuffReport.issuesOf keptDisk (some (.ofText "a.py")) twoLines = .ok [i] := by
  have relative : Relative "./pkg/a.py" := ⟨by decide, by decide, by decide⟩
  have file : relativePath keptDisk (.str "./pkg/a.py") (some (.ofText "a.py")) = .ok "pkg/a.py" :=
    relativePath_relative keptDisk_holds .root relative
  have classed : RuffReport.classifyFinding (.str RuffReport.syntaxError) = .ok (.error, .bug) := by
    rfl
  have found : ∃ i, RuffReport.issueOf keptDisk (some (.ofText "a.py"))
      (.obj [("filename", .str "./pkg/a.py")]) = .ok i :=
    ⟨_, bind_ok_iff.mpr ⟨_, rfl, bind_ok_iff.mpr ⟨_, file, bind_ok_iff.mpr ⟨[], rfl,
      bind_ok_iff.mpr ⟨0, rfl, bind_ok_iff.mpr ⟨0, rfl, bind_ok_iff.mpr ⟨_, classed,
        bind_ok_iff.mpr ⟨[], rfl, rfl⟩⟩⟩⟩⟩⟩⟩⟩
  obtain ⟨i, found⟩ := found
  refine ⟨i, bind_ok_iff.mpr ⟨_, mapError_ok_iff.mpr twoLines_parsed, ?_⟩⟩
  dsimp only
  rw [List.mapM_cons, found]
  rfl

/-- Ruff succeeds if it can read what it printed. -/
theorem printing_succeeds {report : String} {r : Request} {issues : List Issue} {disk : Disk}
    (prepared : Prepared (printing report .zero) (.new .default .ruff "ruff") r checkFile)
    (launches : Launches (printing report .zero) (.new .default .ruff "ruff") r "/usr/bin/ruff"
      (.ofText "a.py"))
    (judged : ∀ ran : Bench, ran.runner.adapter = .ruff → ran.world.disk = .empty [] →
      ∃ kept, (judge (.new .default .ruff "ruff") r (.ofText "a.py") ⟨0, report, ""⟩).outcome ran =
          (.ok (issues, none), kept) ∧
        kept.world.clock = ran.world.clock ∧ kept.world.disk = disk) :
    ∃ a, ((execute View.whole r .nobody).outcome (printing report .zero)).1 = .ok a ∧
      a.success = true ∧ a.issues = issues ∧
      ((execute View.whole r .nobody).outcome (printing report .zero)).2.world.disk = disk := by
  obtain ⟨ran, ends, ruff, clock, empty⟩ := printing_ends report .zero
  obtain ⟨kept, read, still, disk⟩ := judged ran ruff empty
  have measured : Measured (printing report .zero).world.clock kept.world.clock := by
    rw [still, clock]
    show Measured .zero (Binary64.zero.add .zero)
    decide +kernel
  exact disk ▸ launches.succeeds prepared ends rfl read measured

theorem keepReport_prepared :
    Prepared (printing twoLines .zero) (.new .default .ruff "ruff") keepReport checkFile :=
  ⟨rfl, rfl, _, rfl, rfl⟩

theorem keepReport_succeeds :
    ∃ a, ((execute View.whole keepReport .nobody).outcome (printing twoLines .zero)).1 = .ok a ∧
      a.success = true ∧ a.issues.length = 1 ∧
      ((execute View.whole keepReport .nobody).outcome (printing twoLines .zero)).2.world.disk =
        keptDisk := by
  obtain ⟨i, found⟩ := twoLines_read
  obtain ⟨a, answer, well, same, disk⟩ := printing_succeeds keepReport_prepared
    ⟨⟨rfl, rfl, by decide, rfl⟩, [], Disk.sources_absent (by decide) rfl _⟩ fun ran ruff empty => by
      let kept : Bench := { ran with world := { ran.world with disk := keptDisk } }
      have printed : (reportText (.new .default .ruff "ruff") keepReport twoLines).outcome ran =
          (.ok twoLines, kept) := by
        unfold reportText
        rw [Act.outcome_bind_ok (outcome_adapter ran), ruff]
        refine Act.lift_bind_ok_iff.mpr ⟨.ofText "out.json", rfl, ?_⟩
        rw [Act.outcome_bind_ok (Act.outcome_get ran), empty]
        exact Act.lift_bind_ok_iff.mpr ⟨_, keptDisk_written, rfl⟩
      refine ⟨kept, ?_, rfl, rfl⟩
      unfold judge Bench.readReport
      rw [Act.outcome_bind_ok printed, Act.outcome_bind_ok (outcome_adapter kept),
        show kept.runner.adapter = .ruff from ruff, Act.outcome_bind_ok (Act.outcome_get kept)]
      exact Act.lift_bind_ok_iff.mpr ⟨_, found, rfl⟩
  exact ⟨a, answer, well, by rw [same]; rfl, disk⟩

/-- Another ruff, which was never configured, finds the same although the lines of the report end
otherwise in what it reads. -/
theorem replay_agrees_twoLines :
    let after := ((execute View.whole keepReport .nobody).outcome (printing twoLines .zero)).2
    ∃ a a', ((execute View.whole keepReport .nobody).outcome (printing twoLines .zero)).1 = .ok a ∧
      a.issues.length = 1 ∧
      ((analysisOfFile "out.json" "a.py").outcome ⟨.new .ruff, after.world⟩).1 = .ok a' ∧
      a'.issues = a.issues := by
  obtain ⟨a, answer, well, one, kept⟩ := keepReport_succeeds
  obtain ⟨a', -, replayed, -, same, -⟩ := replay_agrees rfl rfl (by decide) rfl (by decide) answer
    well (by rw [kept]; exact keptDisk_exists) ⟨.new .ruff, _⟩ rfl rfl
  exact ⟨a, a', answer, one, replayed, same⟩

end Execution

end LintHub
