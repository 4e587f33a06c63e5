import LintHub.Proofs.Run.Frame
import LintHub.Proofs.Run.Law

/-! # Runs that go well

A run that goes well has come through all its stages: it was let in, found its program and the files,
and read the report of a program that ended in an accepted way. What it tells is what it read.
-/

namespace LintHub

namespace Bench

variable {b after : Bench} {started : Binary64} {a : Analysis}

/-- A failed analysis is none of a run that went well. -/
theorem failed_unsuccessful {message : String}
    (told : (failed started message).outcome b = (.ok a, after)) : a.success = false := by
  obtain ⟨-, _, -, told⟩ := Act.outcome_bind_ok_iff.mp told
  obtain ⟨span, _, -, told⟩ := Act.outcome_bind_ok_iff.mp told
  cases told
  rfl

theorem succeeded_ok {issues : List Issue} {files : Int}
    (told : (succeeded started issues files).outcome b = (.ok a, after)) :
    a.issues = issues ∧ a.filesAnalyzed = files ∧ after = b := by
  obtain ⟨span, timed, asked, told⟩ := Act.outcome_bind_ok_iff.mp told
  obtain ⟨e, untouched⟩ := outcome_since_state started b
  cases asked.symm.trans untouched
  cases told
  exact ⟨rfl, rfl, rfl⟩

theorem isAvailable_ok {found : Bool} (asked : isAvailable.outcome b.opened = (.ok found, after)) :
    ∃ path, (executablePath.outcome b).1 = .ok path := by
  obtain ⟨path, _, known, -⟩ := Act.outcome_bind_ok_iff.mp asked
  exact ⟨path, by rw [← executablePath_opened, known]⟩

/-! ## The text of a report -/

/-- Where the text of a report was taken from, and the bench after that. -/
inductive Taken (b : Bench) (output : Json) (printed : String) :
    Adapter → String → Bench → Prop where
  | unkept (adapter : Adapter) (blank : output.isBlank = true) :
    Taken b output printed adapter printed b
  | kept {p : Path} {disk : Disk} (given : output.isBlank = false)
    (named : Path.ofJson output = .ok p) (written : b.world.disk.writeText p printed = .ok disk) :
    Taken b output printed .ruff printed { b with world := { b.world with disk } }
  | missing {p : Path} (given : output.isBlank = false) (named : Path.ofJson output = .ok p)
    (missing : b.world.disk.exists p = .ok false) :
    Taken b output printed .bandit printed b
  | found {p : Path} {text : String} (given : output.isBlank = false)
    (named : Path.ofJson output = .ok p) (there : b.world.disk.exists p = .ok true)
    (read : b.world.disk.readText p = .ok text) :
    Taken b output printed .bandit text b

theorem reportText_taken {c : Config} {r : Request} {printed text : String}
    (taken : (reportText c r printed).outcome b = (.ok text, after)) :
    Taken b (c.targetFor r).outputFile printed b.runner.adapter text after := by
  unfold reportText at taken
  rw [Act.outcome_bind_ok (outcome_adapter b)] at taken
  cases adapter : b.runner.adapter with
  | ruff =>
    rw [adapter] at taken
    cases blank : (c.targetFor r).outputFile.isBlank with
    | true =>
      rw [blank] at taken
      cases taken
      exact .unkept .ruff blank
    | false =>
      rw [blank] at taken
      obtain ⟨p, named, taken⟩ := Act.lift_bind_ok_iff.mp taken
      rw [Act.outcome_bind_ok (Act.outcome_get b)] at taken
      obtain ⟨disk, written, taken⟩ := Act.lift_bind_ok_iff.mp taken
      cases taken
      exact .kept blank named written
  | bandit =>
    rw [adapter] at taken
    cases blank : (c.targetFor r).outputFile.isBlank with
    | true =>
      rw [blank] at taken
      cases taken
      exact .unkept .bandit blank
    | false =>
      rw [blank] at taken
      obtain ⟨p, named, taken⟩ := Act.lift_bind_ok_iff.mp taken
      rw [Act.outcome_bind_ok (Act.outcome_get b)] at taken
      obtain ⟨there, asked, taken⟩ := Act.lift_bind_ok_iff.mp taken
      cases there with
      | true =>
        obtain ⟨read, rfl⟩ := Prod.mk.inj taken
        exact .found blank named asked read
      | false =>
        cases taken
        exact .missing blank named asked

end Bench

namespace Execution

open Bench

variable {b after : Bench} {c : Config} {r : Request} {a : Analysis}

/-- The course of a run that went well, from its start on a bench to what it tells. -/
structure Course (b : Bench) (c : Config) (r : Request) (a : Analysis) (after : Bench) where
  path : String
  source : Path
  texts : List String
  done : Finished
  /-- The bench when the program had ended. -/
  ran : Bench
  /-- The bench when the report had been read. -/
  judged : Bench
  count : Option Int
  fileCount : Int
  launches : Launches b c r path source
  built : ∃ args, b.arguments c r path = .ok args ∧ textsFrom 0 args = .ok texts
  ends : (runProgram worldView texts c.timeout).outcome (b.begun path texts) = (.ok done, ran)
  accepted : Adapter.acceptsExit done.exit = true
  usable : (judge c r source done).outcome ran = (.ok (a.issues, count), judged)
  counted : a.filesAnalyzed = count.getD fileCount
  disk : after.world.disk = judged.world.disk
  adapter : after.runner.adapter = judged.runner.adapter

/-- The course of a run is settled by its program, by what it is started with and by how it ends. -/
theorem Course.agrees (course : Course b c r a after) {path : String} {texts : List String}
    {done : Finished} {ran : Bench} (found : (executablePath.outcome b).1 = .ok path)
    (built : ∃ args, b.arguments c r path = .ok args ∧ textsFrom 0 args = .ok texts)
    (ends : (runProgram worldView texts c.timeout).outcome (b.begun path texts) = (.ok done, ran)) :
    course.path = path ∧ course.texts = texts ∧ course.done = done ∧ course.ran = ran := by
  obtain ⟨path', -, texts', done', ran', -, -, -, launches, built', ends', -, -, -, -, -⟩ := course
  obtain rfl : path = path' := Except.ok.inj (found.symm.trans launches.found)
  obtain ⟨args, made, textual⟩ := built
  obtain ⟨args', made', textual'⟩ := built'
  obtain rfl : args = args' := Except.ok.inj (made.symm.trans made')
  obtain rfl : texts = texts' := Except.ok.inj (textual.symm.trans textual')
  obtain ⟨ended, left⟩ := Prod.mk.inj (ends.symm.trans ends')
  exact ⟨rfl, rfl, (Except.ok.inj ended).symm, left.symm⟩

/-- A run whose outcome is a success has found its program and knows what to read. -/
theorem run_reaches (told : (run View.whole c r .nobody).outcome b.opened = (.ok a, after))
    (well : a.success = true) :
    ∃ path source, (executablePath.outcome b).1 = .ok path ∧ path.isEmpty = false ∧
      Path.ofJson (c.targetFor r).sourcePath = .ok source := by
  have clock : (do return (← get).world.clock : Act Bench Binary64).outcome b.opened =
      (.ok b.world.clock, b.opened) := rfl
  unfold run at told
  rw [Work.outcome_bind_ok (Work.outcome_whole _ _ ▸ outcome_adapter _)] at told
  rw [Work.outcome_bind_ok (Work.outcome_whole _ _ ▸ clock)] at told
  obtain ⟨available, ready, asked, told⟩ := Work.outcome_bind_ok_iff.mp told
  rw [Work.outcome_whole] at asked
  obtain ⟨path, found⟩ := isAvailable_ok asked
  rw [outcome_isAvailable found] at asked
  cases asked
  cases there : path.isEmpty with
  | true =>
    rw [there, if_pos (by decide)] at told
    exact (Bool.false_ne_true ((failed_unsuccessful told).symm.trans well)).elim
  | false =>
    rw [there, if_neg (by decide)] at told
    obtain ⟨_, _, asked, -⟩ := Work.outcome_bind_ok_iff.mp told
    rw [Work.outcome_whole] at asked
    obtain ⟨source, named, -⟩ := Act.lift_bind_ok_iff.mp asked
    exact ⟨path, source, found, there, named⟩

theorem launch_textual {path : String} {source : Path} {started : Binary64} {fileCount : Int}
    (configured : b.runner.config = some c)
    (told : (launch View.whole c r .nobody started source fileCount).outcome (b.ready path) =
      (.ok a, after)) :
    ∃ args texts, b.arguments c r path = .ok args ∧ textsFrom 0 args = .ok texts := by
  unfold launch at told
  rw [Work.outcome_bind_ok (Work.outcome_whole _ _ ▸ outcome_adapter _)] at told
  obtain ⟨texts, _, asked, -⟩ := Work.outcome_bind_ok_iff.mp told
  rw [Work.outcome_whole] at asked
  obtain ⟨args, _, line, asked⟩ := Act.outcome_bind_ok_iff.mp asked
  have remembered : (executablePath.outcome (b.ready path)).1 = .ok path := rfl
  have same := outcome_commandLine (b := b.ready path) (r := r) configured remembered
  have built : b.arguments c r path = .ok args := congrArg Prod.fst (same.symm.trans line)
  obtain ⟨texts', textual, -⟩ := Act.lift_bind_ok_iff.mp asked
  exact ⟨args, texts', built, textual⟩

/-- A run that concludes with a success has read the report, and tells what it read. -/
theorem conclude_success {ran : Bench} {source : Path} {started : Binary64} {fileCount : Int}
    {done : Finished}
    (told : (conclude View.whole c r .nobody started source fileCount done).outcome ran =
      (.ok a, after)) (well : a.success = true) :
    ∃ count judged, (judge c r source done).outcome ran = (.ok (a.issues, count), judged) ∧
      a.filesAnalyzed = count.getD fileCount ∧ after.world.disk = judged.world.disk ∧
      after.runner.adapter = judged.runner.adapter := by
  rw [outcome_conclude] at told
  rcases judged : (judge c r source done).outcome ran with ⟨f | ⟨issues, count⟩, kept⟩
  · rw [judged] at told
    dsimp only at told
    split at told
    · exact (Bool.false_ne_true ((failed_unsuccessful told).symm.trans well)).elim
    · cases told
  · rw [judged] at told
    obtain ⟨rfl, counted, rfl⟩ := succeeded_ok told
    exact ⟨count, kept, rfl, counted, rfl, rfl⟩

theorem launch_success {path : String} {source : Path} {started : Binary64} {fileCount : Int}
    {args : List Json} {texts : List String} (configured : b.runner.config = some c)
    (built : b.arguments c r path = .ok args) (textual : textsFrom 0 args = .ok texts)
    (told : (launch View.whole c r .nobody started source fileCount).outcome (b.ready path) =
      (.ok a, after)) (well : a.success = true) :
    ∃ done ran, (runProgram worldView texts c.timeout).outcome (b.begun path texts) =
        (.ok done, ran) ∧ Adapter.acceptsExit done.exit = true ∧
      (conclude View.whole c r .nobody started source fileCount done).outcome ran =
        (.ok a, after) := by
  rw [outcome_launch configured built textual] at told
  rcases ends : (runProgram worldView texts c.timeout).outcome (b.begun path texts) with
    ⟨f | done, ran⟩
  · rw [ends] at told
    dsimp only at told
    split at told
    · exact (Bool.false_ne_true ((failed_unsuccessful told).symm.trans well)).elim
    · split at told
      · exact (Bool.false_ne_true ((failed_unsuccessful told).symm.trans well)).elim
      · cases told
  · rw [ends] at told
    dsimp only at told
    split at told
    · next accepted => exact ⟨done, ran, rfl, accepted, told⟩
    · exact (Bool.false_ne_true ((failed_unsuccessful told).symm.trans well)).elim

/-- A success has come the whole way. -/
theorem execute_course (configured : b.runner.config = some c)
    (answer : ((execute View.whole r .nobody).outcome b).1 = .ok a) (well : a.success = true) :
    Nonempty (Course b c r a ((execute View.whole r .nobody).outcome b).2) := by
  rw [outcome_execute configured] at *
  cases running : b.runner.running with
  | true =>
    rw [running] at answer
    cases answer
    cases well
  | false =>
    rw [running, if_neg (by decide)] at answer
    rw [if_neg (by decide)]
    rcases whole : (run View.whole c r .nobody).outcome b.opened with ⟨f | a', after⟩
    · rw [whole] at answer
      cases answer
    · rw [whole] at answer
      cases answer
      obtain ⟨path, source, found, there, named⟩ := run_reaches whole well
      rw [outcome_run found named, if_neg (by simp [there])] at whole
      cases listed : b.world.disk.sources source b.runner.adapter.extensions with
      | error f =>
        rw [listed] at whole
        cases whole
      | ok files =>
        rw [listed] at whole
        obtain ⟨args, texts, built, textual⟩ := launch_textual configured whole
        obtain ⟨done, ran, ends, accepted, concluded⟩ :=
          launch_success configured built textual whole well
        obtain ⟨count, judged, usable, counted, disk, tool⟩ := conclude_success concluded well
        exact ⟨path, source, texts, done, ran, judged, count, files.length,
          ⟨⟨running, found, there, named⟩, files, listed⟩, ⟨args, built, textual⟩, ends, accepted,
          usable, counted, disk, tool⟩

theorem Course.ran_adapter (course : Course b c r a after) :
    course.ran.runner.adapter = b.runner.adapter := by
  have rests := (runProgram_within (R := Rests) (v := worldView) (fun _ _ => rfl) course.texts
    c.timeout).outcome (fun _ => rfl) (fun _ _ _ h h' => h'.trans h) (b.begun course.path course.texts)
  rw [course.ends] at rests
  have same : course.ran.runner.adapter = (b.begun course.path course.texts).runner.adapter :=
    congrArg Runner.adapter rests
  exact same

/-- The text that a run took for its report, and what it read in it. -/
theorem Course.taken (course : Course b c r a after) :
    ∃ text kept, Taken course.ran (c.targetFor r).outputFile course.done.stdout b.runner.adapter
        text kept ∧ kept.runner.adapter = b.runner.adapter ∧
      (Bench.readReport (some course.source) text).outcome kept =
        (.ok (a.issues, course.count), course.judged) := by
  obtain ⟨text, kept, taken, read⟩ := Act.outcome_bind_ok_iff.mp course.usable
  have rests := reportText_rests c r course.done.stdout course.ran
  rw [taken] at rests
  have tool := course.ran_adapter
  have same : kept.runner.adapter = course.ran.runner.adapter := congrArg Runner.adapter rests
  exact ⟨text, kept, tool ▸ reportText_taken taken, same.trans tool, read⟩

theorem Course.after_adapter (course : Course b c r a after) :
    after.runner.adapter = b.runner.adapter := by
  have rests := judge_rests c r course.source course.done course.ran
  rw [course.usable] at rests
  have same : course.judged.runner.adapter = course.ran.runner.adapter := congrArg Runner.adapter rests
  rw [course.adapter, same, course.ran_adapter]

end Execution

end LintHub
