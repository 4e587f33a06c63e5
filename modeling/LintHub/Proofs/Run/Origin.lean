import LintHub.Proofs.Files.Kept
import LintHub.Proofs.Run.Replay
import LintHub.Proofs.Text.Utf8

/-! # Where findings come from

The findings of a run that went well stand in a report that its program gave in that run: it printed
it, or wrote it to the output file. Only bandit looks into that file, and may find one there that its
program left alone.
-/

namespace LintHub

/-! ## What a program writes -/

namespace World

/-- The program that the script has for a command writes a text to the file at a location. -/
inductive Writes (before after : World) (command : List String) (l : Location) : String → Prop where
  | scripted {path text : String} {executable : Bool} (scripted : before.live = false)
    (writes : (before.nextRun command).1.writes = some (path, text))
    (leads : after.disk.arrive true (Path.ofText path).text =
      .ok ⟨l, some (.file (Text.encodeUtf8 text) executable)⟩) :
    Writes before after command l text

theorem nextRun_disk (w : World) (command : List String) : (w.nextRun command).2.disk = w.disk := by
  unfold nextRun
  split
  · rfl
  · split <;> rfl

end World

/-- A file that is there when a program has ended was there before, or the program wrote it. -/
theorem finishScripted_files {command : List String} {timeout : Int} {r : Run} {w w' : World}
    {done : Finished} (ends : (finishScripted command timeout r).outcome w = (.ok done, w'))
    {l : Location} {bytes : List UInt8} {executable : Bool}
    (file : w'.disk.lookup l = some (.file bytes executable)) :
    w.disk.lookup l = some (.file bytes executable) ∨
      ∃ path text x, r.writes = some (path, text) ∧ w'.disk.arrive true (Path.ofText path).text =
        .ok ⟨l, some (.file (Text.encodeUtf8 text) x)⟩ := by
  unfold finishScripted at ends
  rw [Act.outcome_bind_ok (Act.outcome_modify _ w)] at ends
  cases ending : r.ending with
  | raises f =>
    rw [ending] at ends
    cases ends
  | timesOut =>
    rw [ending] at ends
    cases ends
  | exits exit stdout stderr =>
    rw [ending] at ends
    cases writes : r.writes with
    | none =>
      rw [writes] at ends
      cases ends
      exact .inl file
    | some named =>
      obtain ⟨path, text⟩ := named
      rw [writes] at ends
      dsimp only at ends
      rw [Act.outcome_bind_ok (Act.outcome_get _)] at ends
      obtain ⟨made, grown, ends⟩ := Act.lift_bind_ok_iff.mp ends
      obtain ⟨written, put, ends⟩ := Act.lift_bind_ok_iff.mp ends
      cases ends
      obtain ⟨l', x, leads, rest⟩ := Disk.writeBytes_ok put
      rcases rest l with same | rfl
      · left
        rcases Disk.makeDirectories_grows grown l with same' | new
        · rw [← same', ← same]
          exact file
        · rw [same, new] at file
          cases file
      · exact .inr ⟨path, text, x, rfl, leads⟩

/-- A program that writes a file has done so when it has ended. -/
theorem finishScripted_writes {command : List String} {timeout : Int} {r : Run} {w : World}
    {path text stdout stderr : String} {exit : Int} {made written : Disk}
    (ending : r.ending = .exits exit stdout stderr) (writes : r.writes = some (path, text))
    (makes : w.disk.makeDirectories (Path.ofText path).parent = .ok made)
    (puts : made.writeText (Path.ofText path) text = .ok written) :
    (finishScripted command timeout r).outcome w =
      (.ok ⟨exit, stdout, stderr⟩, { w with clock := w.clock.add r.elapsed, disk := written }) := by
  unfold finishScripted
  rw [Act.outcome_bind_ok (Act.outcome_modify _ w), ending]
  dsimp only
  rw [writes]
  dsimp only
  rw [Act.outcome_bind_ok (Act.outcome_get _)]
  exact Act.lift_bind_ok_iff.mpr ⟨_, makes, Act.lift_bind_ok_iff.mpr ⟨_, puts, rfl⟩⟩

theorem outcome_startScripted (command : List String) (timeout : Int) (w : World) :
    ∃ w', (startScripted command timeout).outcome w = (.ok (w.nextRun command).1, w') ∧
      w'.disk = w.disk := by
  let w₁ : World := { w with calls := w.calls ++ [⟨command, timeout⟩] }
  have same : (w₁.nextRun command).1 = (w.nextRun command).1 := by
    unfold World.nextRun
    dsimp only [w₁]
    split
    · rfl
    · split <;> rfl
  refine ⟨(w₁.nextRun command).2, ?_, w₁.nextRun_disk command⟩
  rw [← same]
  rfl

namespace Bench

variable {b ran : Bench} {command : List String} {timeout : Int} {done : Finished}

/-- A program for which a script exists runs from its start to its end. -/
theorem runProgram_scripted {r : Run} {w : World} (scripted : b.world.live = false)
    (starts : (startScripted command timeout).outcome b.world = (.ok r, w)) :
    (runProgram worldView command timeout).outcome b =
      ((finishScripted command timeout r).outcome w).map id fun w => { b with world := w } := by
  have asked : (worldView.work get : Work Bench World).outcome b = (.ok b.world, b) := rfl
  have started : (worldView.work (startScripted command timeout)).outcome b =
      (.ok r, { b with world := w }) := by
    rw [Work.outcome_work, show worldView.get b = b.world from rfl, starts]
    rfl
  unfold runProgram
  rw [Work.outcome_bind_ok asked, scripted, if_neg (by decide), Work.outcome_bind_ok started]
  dsimp only
  split
  · rw [Work.outcome_bind_ok (Work.outcome_pause _), Work.outcome_work]
    rfl
  · rw [Work.outcome_work]
    rfl

/-- A file that is there when a scripted program has ended was there before, or is its own. -/
theorem runProgram_files (scripted : b.world.live = false)
    (ends : (runProgram worldView command timeout).outcome b = (.ok done, ran)) {l : Location}
    {bytes : List UInt8} {executable : Bool}
    (file : ran.world.disk.lookup l = some (.file bytes executable)) :
    b.world.disk.lookup l = some (.file bytes executable) ∨
      ∃ text, b.world.Writes ran.world command l text := by
  obtain ⟨w', starts, disk⟩ := outcome_startScripted command timeout b.world
  rw [runProgram_scripted scripted starts] at ends
  have finishes : (finishScripted command timeout (b.world.nextRun command).1).outcome w' =
      (.ok done, ran.world) := by
    obtain ⟨ended, left⟩ := Prod.mk.inj ends
    exact Prod.ext ended (congrArg Bench.world left)
  rw [← disk]
  rcases finishScripted_files finishes file with old | ⟨path, text, x, writes, leads⟩
  · exact .inl old
  · exact .inr ⟨text, .scripted scripted writes leads⟩

/-- A report that the program of a tool gave while it ran. It printed it, or it wrote it to the output
file; of a program that runs for real it is seen that the file is not the one that was there. -/
inductive Emitted (before after : World) (command : List String) (output : Json)
    (printed : String) : Adapter → String → Prop where
  | printed (tool : Adapter) : Emitted before after command output printed tool printed
  | written {p : Path} {l : Location} {e : Entry} {text : String} (given : output.isBlank = false)
    (named : Path.ofJson output = .ok p) (leads : after.disk.arrive true p.text = .ok ⟨l, some e⟩)
    (writes : before.Writes after command l text) :
    Emitted before after command output printed .bandit
      (String.ofList (Text.unifyNewlines text.toList))
  | changed {p : Path} {l : Location} {e : Entry} {text : String} (live : before.live = true)
    (given : output.isBlank = false) (named : Path.ofJson output = .ok p)
    (leads : after.disk.arrive true p.text = .ok ⟨l, some e⟩)
    (new : before.disk.lookup l ≠ some e) (read : after.disk.readText p = .ok text) :
    Emitted before after command output printed .bandit text

/-- Bandit finds a file that was there before its program was started and that the program left
alone. -/
inductive Leftover (before after : World) (command : List String) (output : Json) :
    Adapter → Prop where
  | found {p : Path} {l : Location} {e : Entry} (given : output.isBlank = false)
    (named : Path.ofJson output = .ok p) (leads : after.disk.arrive true p.text = .ok ⟨l, some e⟩)
    (old : before.disk.lookup l = some e) (alone : ∀ text, ¬ before.Writes after command l text) :
    Leftover before after command output .bandit

theorem Taken.emitted {output : Json} {tool : Adapter} {text : String} {kept : Bench}
    (ends : (runProgram worldView command timeout).outcome b = (.ok done, ran))
    (taken : Taken ran output done.stdout tool text kept)
    (fresh : ¬ Leftover b.world ran.world command output tool) :
    Emitted b.world ran.world command output done.stdout tool text := by
  cases taken with
  | unkept tool => exact .printed tool
  | kept => exact .printed .ruff
  | missing => exact .printed .bandit
  | found given named there read =>
    obtain ⟨l, bytes, executable, s, leads, decoded, rfl⟩ := Disk.readText_ok read
    have file := Disk.arrive_lookup leads (by simp)
    by_cases own : ∃ text, b.world.Writes ran.world command l text
    · obtain ⟨text, writes⟩ := own
      have same : s = text := by
        cases writes with
        | scripted _ _ leads' =>
          have file' := Disk.arrive_lookup leads' (by simp)
          cases file.symm.trans file'
          rw [Text.decodeUtf8_encodeUtf8] at decoded
          exact (Except.ok.inj decoded).symm
      rw [same]
      exact .written given named leads writes
    · have alone : ∀ text, ¬ b.world.Writes ran.world command l text := not_exists.mp own
      cases live : b.world.live with
      | true =>
        exact .changed live given named leads
          (fun old => fresh (.found given named leads old alone)) read
      | false =>
        rcases runProgram_files live ends file with old | writes
        · exact (fresh (.found given named leads old alone)).elim
        · exact (own writes).elim

end Bench

/-! ## An empty text is a report without findings -/

theorem RuffReport.issuesOf_empty (disk : Disk) (root : Option Path) :
    issuesOf disk root "" = .ok [] := by
  have list : Json.read "[]" = .ok (.arr []) := by rfl
  exact bind_ok_iff.mpr ⟨_, mapError_ok_iff.mpr list, rfl⟩

theorem BanditReport.read_empty (root : Option Path) (w : World) :
    (read root "").outcome w = (.ok ([], none), w) := by
  have object : Json.read "\x7b\x7d" = .ok (.obj []) := by rfl
  exact Act.lift_bind_ok_iff.mpr ⟨_, mapError_ok_iff.mpr object, rfl⟩

namespace Bench

theorem readReport_empty (b : Bench) (root : Option Path) :
    ((readReport root "").outcome b).1 = .ok ([], none) := by
  unfold readReport
  rw [Act.outcome_bind_ok (outcome_adapter b)]
  cases b.runner.adapter with
  | ruff =>
    dsimp only
    rw [Act.outcome_bind_ok (Act.outcome_get b), RuffReport.issuesOf_empty]
    rfl
  | bandit => exact congrArg Prod.fst (BanditReport.read_empty root b.world)

end Bench

namespace Execution

open Bench

variable {b : Bench} {c : Config} {r : Request} {a : Analysis}

/-! ## A report written over another -/

/-- A report of an earlier run stands in the output file. -/
def staleDisk : Disk :=
  ⟨[(["out.json"], .file [] false)], []⟩

/-- A program that finds something and writes a report to the output file. -/
def writing (report : String) : Run :=
  ⟨false, .zero, some ("out.json", report), .exits 1 "" ""⟩

/-- Bandit as it comes, and a program that finds something and writes a report to the output file. -/
def scanning (report : String) : Bench where
  runner := { Runner.new .bandit with
    config := some (.new .default .bandit "bandit"), path := some "/usr/bin/bandit" }
  world := { World.bare .default with
    disk := staleDisk
    runs := [writing report] }

/-- What bandit is started with. -/
def scanFile : List String :=
  ["/usr/bin/bandit", "-r", "a.py", "-f", "json", "-o", "/out.json"]

def writtenDisk (report : String) : Disk :=
  staleDisk.put ["out.json"] (.file (Text.encodeUtf8 report) false)

theorem staleDisk_arrives :
    staleDisk.arrive true "out.json" = .ok ⟨["out.json"], some (.file [] false)⟩ :=
  Disk.arrive_name true (by decide) fun target link => nomatch link

theorem writtenDisk_arrives (report : String) : (writtenDisk report).arrive true "out.json" =
    .ok ⟨["out.json"], some (.file (Text.encodeUtf8 report) false)⟩ :=
  Disk.arrive_put staleDisk_arrives (.inr ⟨_, _, rfl⟩)

theorem staleDisk_written (report : String) :
    staleDisk.writeText (.ofText "out.json") report = .ok (writtenDisk report) :=
  bind_ok_iff.mpr ⟨_, staleDisk_arrives, rfl⟩

theorem scanning_arguments (report : String) :
    (scanning report).arguments (.new .default .bandit "bandit") keepReport "/usr/bin/bandit" =
      .ok (scanFile.map .str) := by
  have resolved : staleDisk.resolve (.ofText "out.json") = .ok ⟨1, ["out.json"]⟩ :=
    Disk.resolve_ofText .root staleDisk_arrives
  have option : reportOption staleDisk (.str "out.json") = .ok [.str "-o", .str "/out.json"] :=
    bind_ok_iff.mpr ⟨.ofText "out.json", rfl, bind_ok_iff.mpr ⟨_, resolved, rfl⟩⟩
  exact bind_ok_iff.mpr ⟨_, bind_ok_iff.mpr ⟨_, option, rfl⟩, rfl⟩

theorem scanning_prepared (report : String) :
    Prepared (scanning report) (.new .default .bandit "bandit") keepReport scanFile := by
  refine ⟨rfl, rfl, scanFile.map .str, ?_, rfl⟩
  rw [outcome_commandLine rfl rfl]
  exact scanning_arguments report

theorem scanning_launches (report : String) :
    Launches (scanning report) (.new .default .bandit "bandit") keepReport "/usr/bin/bandit"
      (.ofText "a.py") :=
  ⟨⟨rfl, rfl, by decide, rfl⟩, [], Disk.sources_absent (by decide) rfl _⟩

/-- The program writes its report over the one that was there. -/
theorem scanning_ends (report : String) : ∃ ran,
    (runProgram worldView scanFile (Config.new .default .bandit "bandit").timeout).outcome
        ((scanning report).begun "/usr/bin/bandit" scanFile) = (.ok ⟨1, "", ""⟩, ran) ∧
      ran.runner.adapter = .bandit ∧ ran.world.disk = writtenDisk report ∧
      ran.world.clock = Binary64.zero.add .zero := by
  have made : staleDisk.makeDirectories (Path.ofText "out.json").parent = .ok staleDisk :=
    Disk.makeDirectories_here staleDisk (by decide)
  obtain ⟨w, starts, disk, clock⟩ : ∃ w,
      (startScripted scanFile (Config.new .default .bandit "bandit").timeout).outcome
          ((scanning report).begun "/usr/bin/bandit" scanFile).world = (.ok (writing report), w) ∧
        w.disk = staleDisk ∧ w.clock = .zero := ⟨_, rfl, rfl, rfl⟩
  have ends := runProgram_scripted rfl starts
  rw [finishScripted_writes rfl rfl (disk ▸ made) (staleDisk_written report), clock] at ends
  refine ⟨_, ends, rfl, rfl, ?_⟩
  dsimp only [writing]

/-- A report of one finding. -/
def oneFinding : String :=
  "\x7b\"results\":[\x7b\"filename\":\"./pkg/a.py\"\x7d]\x7d"

theorem oneFinding_parsed : Json.read oneFinding =
    .ok (.obj [("results", .arr [.obj [("filename", .str "./pkg/a.py")]])]) := by
  have results : Json.SpellsField "\"results\":[\x7b\"filename\":\"./pkg/a.py\"\x7d]".toList
      ("results", .arr [.obj [("filename", .str "./pkg/a.py")]]) :=
    ⟨[], _, Json.isGap_nil, rfl, Json.spells_arr Json.isGap_nil Json.isGap_nil
      (.cons aboutA_spelled .nil) (by simp) Json.isGap_nil⟩
  have report := Json.spells_obj Json.isGap_nil Json.isGap_nil (.cons results .nil) (by simp)
    (by simp [Fields.names]) Json.isGap_nil
  exact Json.read_of_spells report Json.isGap_nil rfl

theorem writtenDisk_holds (report : String) : Holds (writtenDisk report) (.ofText "a.py") [] := by
  refine .file (Path.normal_ofText "a.py") ?_ (Disk.arrive_dot _ true)
  unfold Disk.isDirectory
  rw [Disk.status_name (e := none) (by decide) rfl (by simp)]
  rfl

theorem oneFinding_read {w : World} (disk : w.disk = writtenDisk oneFinding) :
    ∃ i, (BanditReport.read (some (.ofText "a.py")) oneFinding).outcome w = (.ok ([i], none), w) := by
  have file : relativePath w.disk (.str "./pkg/a.py") (some (.ofText "a.py")) = .ok "pkg/a.py" := by
    rw [disk]
    exact relativePath_relative (writtenDisk_holds oneFinding) .root
      ⟨by decide, by decide, by decide⟩
  have found : ∃ i, BanditReport.issueOf w.disk (some (.ofText "a.py"))
      (.obj [("filename", .str "./pkg/a.py")]) = .ok i :=
    ⟨_, bind_ok_iff.mpr ⟨_, rfl, bind_ok_iff.mpr ⟨_, file, bind_ok_iff.mpr ⟨0, rfl,
      bind_ok_iff.mpr ⟨0, rfl, bind_ok_iff.mpr ⟨"", rfl, rfl⟩⟩⟩⟩⟩⟩
  obtain ⟨i, found⟩ := found
  have all : [Json.obj [("filename", .str "./pkg/a.py")]].mapM
      (BanditReport.issueOf w.disk (some (.ofText "a.py"))) = .ok [i] := by
    rw [List.mapM_cons, found]
    rfl
  refine ⟨i, Act.lift_bind_ok_iff.mpr ⟨_, mapError_ok_iff.mpr oneFinding_parsed, ?_⟩⟩
  refine Act.lift_bind_ok_iff.mpr ⟨_, rfl, Act.lift_bind_ok_iff.mpr ⟨[], rfl, ?_⟩⟩
  have unskipped : (([] : List Json).forM BanditReport.reportSkipped : Act World Unit).outcome w =
      (.ok (), w) := rfl
  rw [Act.outcome_bind_ok unskipped, Act.outcome_bind_ok (Act.outcome_get w)]
  exact Act.lift_bind_ok_iff.mpr ⟨_, rfl, Act.lift_bind_ok_iff.mpr ⟨_, all,
    Act.lift_bind_ok_iff.mpr ⟨none, rfl, rfl⟩⟩⟩

theorem oneFinding_judged {ran : Bench} (bandit : ran.runner.adapter = .bandit)
    (disk : ran.world.disk = writtenDisk oneFinding) : ∃ i,
      (judge (.new .default .bandit "bandit") keepReport (.ofText "a.py") ⟨1, "", ""⟩).outcome ran =
        (.ok ([i], none), ran) := by
  have there : (writtenDisk oneFinding).exists (.ofText "out.json") = .ok true := by
    unfold Disk.exists
    rw [Disk.status_name (e := some (.file (Text.encodeUtf8 oneFinding) false)) (by decide) rfl
      (by simp)]
    rfl
  have text : (reportText (.new .default .bandit "bandit") keepReport "").outcome ran =
      (.ok oneFinding, ran) := by
    unfold reportText
    rw [Act.outcome_bind_ok (outcome_adapter ran), bandit]
    refine Act.lift_bind_ok_iff.mpr ⟨.ofText "out.json", rfl, ?_⟩
    rw [Act.outcome_bind_ok (Act.outcome_get ran), disk]
    refine Act.lift_bind_ok_iff.mpr ⟨true, there, ?_⟩
    rw [if_pos rfl, Act.outcome_except, Disk.readText_writeText (staleDisk_written oneFinding)]
    rfl
  obtain ⟨i, read⟩ := oneFinding_read disk
  refine ⟨i, ?_⟩
  unfold judge Bench.readReport
  rw [Act.outcome_bind_ok text, Act.outcome_bind_ok (outcome_adapter ran), bandit]
  dsimp only
  show ((BanditReport.read _ oneFinding).outcome ran.world).map id
    (fun w => { ran with world := w }) = _
  rw [read]
  rfl

theorem scanning_succeeds : ∃ a,
    ((execute View.whole keepReport .nobody).outcome (scanning oneFinding)).1 = .ok a ∧
      a.success = true ∧ a.issues.length = 1 := by
  obtain ⟨ran, ends, bandit, disk, clock⟩ := scanning_ends oneFinding
  obtain ⟨i, judged⟩ := oneFinding_judged bandit disk
  have measured : Measured (scanning oneFinding).world.clock ran.world.clock := by
    rw [clock]
    show Measured .zero (Binary64.zero.add .zero)
    decide +kernel
  obtain ⟨a, answer, well, issues, -⟩ := (scanning_launches oneFinding).succeeds
    (scanning_prepared oneFinding) ends rfl judged measured
  exact ⟨a, answer, well, by rw [issues]; rfl⟩

/-- The program wrote the file that bandit finds. -/
theorem scanning_fresh {report : String} {a : Analysis} {after : Bench}
    (course : Course (scanning report) (.new .default .bandit "bandit") keepReport a after) :
    ¬ Leftover ((scanning report).begun course.path course.texts).world course.ran.world
      course.texts (.str "out.json") .bandit := by
  obtain ⟨ran, ends, -, disk, -⟩ := scanning_ends report
  obtain ⟨path, texts, -, left⟩ := course.agrees rfl ⟨_, scanning_arguments report, rfl⟩ ends
  rw [path, texts, left]
  rintro ⟨-, named, leads, -, alone⟩
  obtain rfl := Except.ok.inj named
  have arrives : ran.world.disk.arrive true "out.json" = _ := disk ▸ writtenDisk_arrives report
  obtain rfl : ["out.json"] = _ :=
    congrArg Arrival.location (Except.ok.inj (arrives.symm.trans leads))
  exact alone report (.scripted rfl rfl arrives)

/-- The program printed nothing and wrote its report. -/
theorem scanning_emitted {report text : String} {a : Analysis} {after : Bench}
    (course : Course (scanning report) (.new .default .bandit "bandit") keepReport a after)
    (emitted : Emitted ((scanning report).begun course.path course.texts).world course.ran.world
      course.texts (.str "out.json") course.done.stdout .bandit text) :
    text = "" ∨ text = String.ofList (Text.unifyNewlines report.toList) := by
  obtain ⟨ran, ends, -⟩ := scanning_ends report
  obtain ⟨path, texts, done, -⟩ := course.agrees rfl ⟨_, scanning_arguments report, rfl⟩ ends
  rw [path, texts] at emitted
  cases emitted with
  | printed => exact .inl (congrArg Finished.stdout done)
  | written _ _ _ writes =>
    cases writes with
    | scripted _ writes =>
      cases writes
      exact .inr rfl
  | changed live => cases live

/-! ## What a success rests on -/

/-- The findings of a run that went well are those of a report that its program gave in that run,
unless bandit was left with a file that was there before. An empty report is one without findings. -/
theorem success_rests_on_report (configured : b.runner.config = some c)
    (answer : ((execute View.whole r .nobody).outcome b).1 = .ok a) (well : a.success = true) :
    ∃ course : Course b c r a ((execute View.whole r .nobody).outcome b).2,
      ¬ Leftover (b.begun course.path course.texts).world course.ran.world course.texts
          (c.targetFor r).outputFile b.runner.adapter →
        ∃ text, Emitted (b.begun course.path course.texts).world course.ran.world course.texts
            (c.targetFor r).outputFile course.done.stdout b.runner.adapter text ∧
          ((Bench.readReport (some course.source) text).outcome
            ((execute View.whole r .nobody).outcome b).2).1 = .ok (a.issues, course.count) ∧
          (text = "" → a.issues = []) := by
  obtain ⟨course⟩ := execute_course configured answer well
  refine ⟨course, fun fresh => ?_⟩
  obtain ⟨text, kept, taken, tool, read⟩ := course.taken
  have untouched := (readReport_again (b := kept) rfl rfl read).1
  obtain ⟨-, again⟩ := readReport_again (course.after_adapter.trans tool.symm)
    (course.disk.trans untouched) read
  refine ⟨text, taken.emitted course.ends fresh, again, ?_⟩
  rintro rfl
  rw [readReport_empty] at again
  exact (congrArg Prod.fst (Except.ok.inj again)).symm

/-- Ruff finds what it printed, whatever it was to do with it, and bandit what its program wrote over
an older report. -/
theorem success_rests_on_report_printed_written :
    (∃ (a : Analysis) (course : Course (printing twoLines .zero) (.new .default .ruff "ruff")
      keepReport a ((execute View.whole keepReport .nobody).outcome (printing twoLines .zero)).2),
      a.issues.length = 1 ∧
      ((Bench.readReport (some course.source) course.done.stdout).outcome
        ((execute View.whole keepReport .nobody).outcome (printing twoLines .zero)).2).1 =
          .ok (a.issues, course.count)) ∧
    ∃ (a : Analysis) (course : Course (scanning oneFinding) (.new .default .bandit "bandit")
      keepReport a ((execute View.whole keepReport .nobody).outcome (scanning oneFinding)).2),
      a.issues.length = 1 ∧
      ((Bench.readReport (some course.source) oneFinding).outcome
        ((execute View.whole keepReport .nobody).outcome (scanning oneFinding)).2).1 =
          .ok (a.issues, course.count) := by
  constructor
  · obtain ⟨a, answer, well, one, -⟩ := keepReport_succeeds
    obtain ⟨course, rests⟩ := success_rests_on_report rfl answer well
    obtain ⟨text, emitted, read, -⟩ := rests nofun
    cases emitted with
    | printed => exact ⟨a, course, one, read⟩
  · obtain ⟨a, answer, well, one⟩ := scanning_succeeds
    obtain ⟨course, rests⟩ := success_rests_on_report rfl answer well
    obtain ⟨text, emitted, read, empty⟩ := rests (scanning_fresh course)
    rcases scanning_emitted course emitted with rfl | rfl
    · rw [empty rfl] at one
      cases one
    · exact ⟨a, course, one, read⟩

/-- The program of a run that prints a report comes to nothing else. -/
theorem printing_done {report : String} {elapsed : Binary64} {after : Bench}
    (course : Course (printing report elapsed) (.new .default .ruff "ruff") aboutFile a after) :
    course.done = ⟨0, report, ""⟩ := by
  obtain ⟨ran, ends, -⟩ := printing_ends report elapsed
  exact (course.agrees rfl ⟨checkFile.map .str, rfl, rfl⟩ ends).2.2.1

theorem silent_succeeds : ∃ a,
    ((execute View.whole aboutFile .nobody).outcome (printing "" .zero)).1 = .ok a ∧
      a.success = true := by
  obtain ⟨a, answer, well, -⟩ := printing_succeeds (printing_prepared "" .zero)
    (printing_launches "" .zero) fun ran ruff empty => by
      have unkept : ((Config.new .default .ruff "ruff").targetFor aboutFile).outputFile.isBlank =
          true := rfl
      have judged := outcome_judge_ruff (.ofText "a.py") ⟨0, "", ""⟩ ruff unkept
      rw [RuffReport.issuesOf_empty] at judged
      exact ⟨ran, judged, rfl, empty⟩
  exact ⟨a, answer, well⟩

/-- A program that prints nothing is taken to have found nothing: the run goes well without a
report. -/
theorem not_every_success_rests_on_report :
    ¬ ∀ (b : Bench) (c : Config) (r : Request) (a : Analysis), b.runner.config = some c →
      ((execute View.whole r .nobody).outcome b).1 = .ok a → a.success = true →
      ∃ course : Course b c r a ((execute View.whole r .nobody).outcome b).2, ∃ text,
        text ≠ "" ∧ Emitted (b.begun course.path course.texts).world course.ran.world course.texts
          (c.targetFor r).outputFile course.done.stdout b.runner.adapter text ∧
        ((Bench.readReport (some course.source) text).outcome
          ((execute View.whole r .nobody).outcome b).2).1 = .ok (a.issues, course.count) := by
  intro claim
  obtain ⟨a, answer, well⟩ := silent_succeeds
  obtain ⟨course, text, some, emitted, -⟩ := claim _ _ _ _ rfl answer well
  cases emitted with
  | printed => exact some (congrArg Finished.stdout (printing_done course))

end Execution

end LintHub
