import LintHub.Proofs.Run.Stages

/-! # The law of runs

What goes wrong in a run is told in a failed analysis. What is not, and leaves the run as a fault, are
files whose paths are too long to be looked at, a program that cannot be started for a reason which is
not the system's, and a report that leaks.
-/

namespace LintHub

namespace Execution

open Bench

variable {b : Bench} {c : Config} {r : Request} {texts : List String}

/-- A tool that is configured, and a request that a command line can be built for. -/
structure Prepared (b : Bench) (c : Config) (r : Request) (texts : List String) : Prop where
  configured : b.runner.config = some c
  fits : c.kind = b.runner.adapter.configKind
  built : ∃ args, ((commandLine r).outcome b).1 = .ok args ∧ textsFrom 0 args = .ok texts

/-- A run is let in, and its program is found. -/
structure Reaches (b : Bench) (c : Config) (r : Request) (path : String) (source : Path) : Prop where
  free : b.runner.running = false
  found : (executablePath.outcome b).1 = .ok path
  there : path.isEmpty = false
  named : Path.ofJson (c.targetFor r).sourcePath = .ok source

/-- A run comes to start its program. -/
structure Launches (b : Bench) (c : Config) (r : Request) (path : String) (source : Path) : Prop
    extends Reaches b c r path source where
  listed : ∃ files, b.world.disk.sources source b.runner.adapter.extensions = .ok files

/-- The faults that leave a run. -/
inductive Escapes (b : Bench) (c : Config) (r : Request) (texts : List String) : Fault → Prop where
  | files {path : String} {source p : Path} (reaches : Reaches b c r path source)
    (long : b.world.disk.sources source b.runner.adapter.extensions =
      .error (.refused .nameTooLong p.text)) :
    Escapes b c r texts (.refused .nameTooLong p.text)
  | program {path : String} {source : Path} {ran : Bench} {f : Fault}
    (launches : Launches b c r path source)
    (fails : (runProgram worldView texts c.timeout).outcome (b.begun path texts) = (.error f, ran))
    (odd : f.isOneOf [.timeout, .system] = false) :
    Escapes b c r texts f
  | report {path : String} {source : Path} {done : Finished} {ran kept : Bench} {text : String}
    {f : Fault} (launches : Launches b c r path source)
    (ends : (runProgram worldView texts c.timeout).outcome (b.begun path texts) = (.ok done, ran))
    (accepted : Adapter.acceptsExit done.exit = true)
    (printed : (reportText c r done.stdout).outcome ran = (.ok text, kept))
    (leaks : kept.runner.adapter.Leaks kept.world.disk (some source) text f) :
    Escapes b c r texts f

/-- The issues in the report of a run. -/
inductive Reads (b : Bench) (c : Config) (r : Request) (texts : List String) :
    List Issue → Prop where
  | read {path : String} {source : Path} {done : Finished} {ran judged : Bench}
    {issues : List Issue} {count : Option Int} (launches : Launches b c r path source)
    (ends : (runProgram worldView texts c.timeout).outcome (b.begun path texts) = (.ok done, ran))
    (accepted : Adapter.acceptsExit done.exit = true)
    (usable : (judge c r source done).outcome ran = (.ok (issues, count), judged)) :
    Reads b c r texts issues

/-- What a run promises: it is answered unless a fault leaves it, by the issues of its report or by a
failed analysis that says why. -/
structure RunLaw (b : Bench) (c : Config) (r : Request) (texts : List String)
    (e : Except Fault Analysis) : Prop where
  leaves : ∀ f, e = .error f ↔ Escapes b c r texts f
  read : ∀ issues, Reads b c r texts issues →
    ∃ a, e = .ok a ∧ a.success = true ∧ a.issues = issues
  told : (¬ ∃ issues, Reads b c r texts issues) → ∀ a, e = .ok a →
    a.success = false ∧ a.errorMessage.isBlank = false

/-! ## What a command line tells -/

theorem ownArguments_source {disk : Disk} {own : List Json} (special : c.kind ≠ .base)
    (h : ownArguments disk c r = .ok own) : (c.targetFor r).sourcePath ∈ own := by
  unfold ownArguments at h
  unfold Config.kind at special
  cases kind : c.special with
  | base =>
    rw [kind] at special
    exact (special rfl).elim
  | ruff o =>
    rw [kind] at h
    cases h
    simp
  | bandit o =>
    rw [kind] at h
    obtain ⟨output, -, h⟩ := bind_ok_iff.mp h
    cases h
    simp

theorem Prepared.path (prepared : Prepared b c r texts) :
    ∃ path args, (executablePath.outcome b).1 = .ok path ∧ b.arguments c r path = .ok args ∧
      textsFrom 0 args = .ok texts := by
  obtain ⟨args, built, textual⟩ := prepared.built
  obtain ⟨path, found, built⟩ := commandLine_ok prepared.configured built
  exact ⟨path, args, found, built, textual⟩

/-- The source stands on the command line, so that it is a text. -/
theorem Prepared.source (prepared : Prepared b c r texts) :
    ∃ source, Path.ofJson (c.targetFor r).sourcePath = .ok source := by
  obtain ⟨path, args, -, built, textual⟩ := prepared.path
  have special : c.kind ≠ .base := by
    rw [prepared.fits]
    cases b.runner.adapter <;> decide
  have mem : (c.targetFor r).sourcePath ∈ args := by
    obtain ⟨own, howMany, built⟩ := bind_ok_iff.mp built
    obtain ⟨configured, -, built⟩ := bind_ok_iff.mp built
    obtain ⟨requested, -, built⟩ := bind_ok_iff.mp built
    cases built
    simp [ownArguments_source special howMany]
  rw [textsFrom_ok textual] at mem
  obtain ⟨s, -, told⟩ := List.mem_map.mp mem
  exact ⟨Path.ofText s, by rw [← told]; rfl⟩

/-! ## What is told -/

theorem failed_told {ran : Bench} {started : Binary64} {message : String}
    (timed : Measured started (((failed started message).outcome ran).map id closed).2.world.clock) :
    ∃ a, (((failed started message).outcome ran).map id closed).1 = .ok a ∧ a.success = false ∧
      a.errorMessage = .str message := by
  rw [Prod.map_snd] at timed
  obtain ⟨a, told, failed, why⟩ := outcome_failed (failed_clock started message ran ▸ timed) message
  exact ⟨a, by rw [told]; rfl, failed, why⟩

theorem succeeded_told {ran : Bench} {started : Binary64} {issues : List Issue} {files : Int}
    (timed : Measured started
      (((succeeded started issues files).outcome ran).map id closed).2.world.clock) :
    ∃ a, (((succeeded started issues files).outcome ran).map id closed).1 = .ok a ∧
      a.success = true ∧ a.issues = issues := by
  rw [Prod.map_snd] at timed
  obtain ⟨a, told, well, same⟩ :=
    outcome_succeeded (succeeded_clock started issues files ran ▸ timed) issues files
  exact ⟨a, by rw [told]; rfl, well, same⟩

/-- The analysis or the fault that a run comes to, and why. -/
inductive Answered (b : Bench) (c : Config) (r : Request) (texts : List String) :
    Except Fault Analysis → Prop where
  | left {f : Fault} (escapes : Escapes b c r texts f) : Answered b c r texts (.error f)
  | told {a : Analysis} {why : String} (failed : a.success = false)
    (message : a.errorMessage = .str why) (something : why ≠ "") : Answered b c r texts (.ok a)
  | read {a : Analysis} (reads : Reads b c r texts a.issues) (well : a.success = true) :
    Answered b c r texts (.ok a)

theorem failed_answered {ran : Bench} {started : Binary64} {message : String}
    (timed : Measured started (((failed started message).outcome ran).map id closed).2.world.clock)
    (something : message ≠ "") :
    Answered b c r texts (((failed started message).outcome ran).map id closed).1 := by
  obtain ⟨a, told, failed, why⟩ := failed_told timed
  rw [told]
  exact .told failed why something

section launches

variable {path : String} {source : Path} {started : Binary64} {done : Finished} {ran : Bench}
  {fileCount : Int} (launches : Launches b c r path source)
include launches

theorem conclude_answered
    (ends : (runProgram worldView texts c.timeout).outcome (b.begun path texts) = (.ok done, ran))
    (accepted : Adapter.acceptsExit done.exit = true)
    (timed : Measured started (((conclude View.whole c r .nobody started source fileCount done).outcome
      ran).map id closed).2.world.clock) :
    Answered b c r texts
      (((conclude View.whole c r .nobody started source fileCount done).outcome ran).map id
        closed).1 := by
  rw [outcome_conclude] at *
  rcases judged : (judge c r source done).outcome ran with ⟨f | ⟨issues, count⟩, after⟩
  · rw [judged] at timed
    dsimp only at *
    split at timed
    · next caught =>
      rw [if_pos caught]
      exact failed_answered timed (by simp [toString])
    · next uncaught =>
      rw [if_neg uncaught]
      rcases judge_faults source done ran f (by rw [judged]) with caught | leaks
      · exact (uncaught caught).elim
      · obtain ⟨text, kept, printed, leaks⟩ := judge_leaks_iff.mp ⟨by rw [judged], leaks⟩
        exact .left (.report launches ends accepted printed leaks)
  · rw [judged] at timed
    obtain ⟨a, told, well, rfl⟩ := succeeded_told timed
    dsimp only
    rw [told]
    exact .read (.read launches ends accepted judged) well

theorem launch_answered {args : List Json} (configured : b.runner.config = some c)
    (built : b.arguments c r path = .ok args) (textual : textsFrom 0 args = .ok texts)
    (timed : Measured started (((launch View.whole c r .nobody started source fileCount).outcome
      (b.ready path)).map id closed).2.world.clock) :
    Answered b c r texts
      (((launch View.whole c r .nobody started source fileCount).outcome (b.ready path)).map id
        closed).1 := by
  rw [outcome_launch configured built textual] at *
  rcases ends : (runProgram worldView texts c.timeout).outcome (b.begun path texts) with
    ⟨f | done, ran⟩
  · rw [ends] at timed
    dsimp only at *
    by_cases late : f.isOneOf [.timeout] = true
    · rw [if_pos late] at *
      exact failed_answered timed (by simp [toString])
    · by_cases refused : f.isOneOf [.system] = true
      · rw [if_neg late, if_pos refused] at *
        exact failed_answered timed (by simp [toString])
      · rw [if_neg late, if_neg refused]
        refine .left (.program launches ends ?_)
        simpa [Fault.isOneOf] using And.intro late refused
  · rw [ends] at timed
    dsimp only at *
    by_cases accepted : Adapter.acceptsExit done.exit = true
    · rw [if_pos accepted] at *
      exact conclude_answered launches ends accepted timed
    · rw [if_neg accepted] at *
      exact failed_answered timed (by simp [toString])

end launches

theorem execute_answered (prepared : Prepared b c r texts)
    (timed : Measured b.world.clock
      ((execute View.whole r .nobody).outcome b).2.world.clock) :
    Answered b c r texts ((execute View.whole r .nobody).outcome b).1 := by
  obtain ⟨path, args, found, built, textual⟩ := prepared.path
  obtain ⟨source, named⟩ := prepared.source
  rw [outcome_execute prepared.configured] at *
  cases running : b.runner.running with
  | true => exact .told rfl rfl (by decide)
  | false =>
    rw [running, if_neg (by decide), outcome_run found named] at timed
    rw [if_neg (by decide), outcome_run found named]
    cases there : path.isEmpty with
    | true =>
      rw [there, if_pos rfl] at timed
      rw [if_pos rfl]
      exact failed_answered timed (by simp [toString])
    | false =>
      rw [there, if_neg (by decide)] at timed
      rw [if_neg (by decide)]
      have reaches : Reaches b c r path source := ⟨running, found, there, named⟩
      cases listed : b.world.disk.sources source b.runner.adapter.extensions with
      | error f =>
        obtain ⟨p, rfl⟩ := sources_faults _ _ _ f listed
        exact .left (.files reaches listed)
      | ok files =>
        rw [listed] at timed
        exact launch_answered ⟨reaches, files, listed⟩ prepared.configured built textual timed

/-! ## How far a run comes -/

theorem Reaches.outcome {path : String} {source : Path} (reaches : Reaches b c r path source)
    (configured : b.runner.config = some c) :
    (execute View.whole r .nobody).outcome b =
      ((run View.whole c r .nobody).outcome b.opened).map id closed ∧
    (run View.whole c r .nobody).outcome b.opened =
      match b.world.disk.sources source b.runner.adapter.extensions with
      | .error f => (.error f, b.ready path)
      | .ok files =>
        (launch View.whole c r .nobody b.world.clock source files.length).outcome
          (b.ready path) := by
  constructor
  · rw [outcome_execute configured, if_neg (by simp [reaches.free])]
  · have run := @outcome_run b c r path source reaches.found reaches.named
    rw [if_neg (by simp [reaches.there])] at run
    exact run

theorem Launches.outcome {path : String} {source : Path} (launches : Launches b c r path source)
    (configured : b.runner.config = some c) : ∃ fileCount : Int,
      (execute View.whole r .nobody).outcome b =
        ((launch View.whole c r .nobody b.world.clock source fileCount).outcome
          (b.ready path)).map id closed := by
  obtain ⟨files, listed⟩ := launches.listed
  obtain ⟨whole, run⟩ := launches.toReaches.outcome configured
  rw [whole, run, listed]
  exact ⟨files.length, rfl⟩

theorem Launches.concludes {path : String} {source : Path} {done : Finished} {ran : Bench}
    (launches : Launches b c r path source) (prepared : Prepared b c r texts)
    (ends : (runProgram worldView texts c.timeout).outcome (b.begun path texts) = (.ok done, ran))
    (accepted : Adapter.acceptsExit done.exit = true) : ∃ fileCount : Int,
      (execute View.whole r .nobody).outcome b =
        ((conclude View.whole c r .nobody b.world.clock source fileCount done).outcome ran).map id
          closed := by
  obtain ⟨fileCount, whole⟩ := launches.outcome prepared.configured
  obtain ⟨path', args, found, built, textual⟩ := prepared.path
  obtain rfl : path = path' := Except.ok.inj (launches.found.symm.trans found)
  rw [outcome_launch prepared.configured built textual, ends] at whole
  dsimp only at whole
  rw [if_pos accepted] at whole
  exact ⟨fileCount, whole⟩

/-- A report that can be read ends a run well. -/
theorem conclude_succeeds {source : Path} {started : Binary64} {done : Finished} {ran kept : Bench}
    {issues : List Issue} {count : Option Int} (fileCount : Int)
    (usable : (judge c r source done).outcome ran = (.ok (issues, count), kept))
    (measured : Measured started kept.world.clock) :
    ∃ a told, (conclude View.whole c r .nobody started source fileCount done).outcome ran =
        (.ok a, kept.noted .info told) ∧ a.success = true ∧ a.issues = issues := by
  obtain ⟨a, answer, well, same⟩ := outcome_succeeded (b := kept.noted .info _) measured issues
    (Option.getD count fileCount)
  rw [outcome_conclude, usable]
  exact ⟨a, _, answer, well, same⟩

/-- A run whose report can be read goes well, and changes no file after that. -/
theorem Launches.succeeds {path : String} {source : Path} {done : Finished} {ran kept : Bench}
    {issues : List Issue} {count : Option Int} (launches : Launches b c r path source)
    (prepared : Prepared b c r texts)
    (ends : (runProgram worldView texts c.timeout).outcome (b.begun path texts) = (.ok done, ran))
    (accepted : Adapter.acceptsExit done.exit = true)
    (usable : (judge c r source done).outcome ran = (.ok (issues, count), kept))
    (measured : Measured b.world.clock kept.world.clock) :
    ∃ a, ((execute View.whole r .nobody).outcome b).1 = .ok a ∧ a.success = true ∧
      a.issues = issues ∧
      ((execute View.whole r .nobody).outcome b).2.world.disk = kept.world.disk := by
  obtain ⟨fileCount, whole⟩ := launches.concludes prepared ends accepted
  obtain ⟨a, told, answer, well, same⟩ := conclude_succeeds fileCount usable measured
  rw [whole, answer]
  exact ⟨a, rfl, well, same, rfl⟩

theorem Escapes.outcome {f : Fault} (escapes : Escapes b c r texts f)
    (prepared : Prepared b c r texts) :
    ((execute View.whole r .nobody).outcome b).1 = .error f := by
  cases escapes with
  | files reaches long =>
    obtain ⟨whole, run⟩ := reaches.outcome prepared.configured
    rw [whole, run, long]
    rfl
  | program launches fails odd =>
    obtain ⟨fileCount, whole⟩ := launches.outcome prepared.configured
    obtain ⟨path, args, found, built, textual⟩ := prepared.path
    cases launches.found.symm.trans found
    have neither : f.isOneOf [.timeout] = false ∧ f.isOneOf [.system] = false := by
      simpa [Fault.isOneOf] using odd
    rw [whole, outcome_launch prepared.configured built textual, fails]
    dsimp only
    rw [if_neg (by simp [neither.1]), if_neg (by simp [neither.2])]
    rfl
  | report launches ends accepted printed leaks =>
    obtain ⟨fileCount, whole⟩ := launches.concludes prepared ends accepted
    obtain ⟨fails, leaks⟩ := judge_leaks_iff.mpr ⟨_, _, printed, leaks⟩
    rw [whole, outcome_conclude]
    rcases judged : (judge c r _ _).outcome _ with ⟨g | p, after⟩
    · rw [judged] at fails
      cases fails
      dsimp only
      rw [if_neg (show ¬ f.isOneOf reportFaults = true from leaks.not_caught)]
      rfl
    · rw [judged] at fails
      cases fails

theorem Reads.outcome {issues : List Issue} (reads : Reads b c r texts issues)
    (prepared : Prepared b c r texts)
    (timed : Measured b.world.clock
      ((execute View.whole r .nobody).outcome b).2.world.clock) :
    ∃ a, ((execute View.whole r .nobody).outcome b).1 = .ok a ∧ a.success = true ∧
      a.issues = issues := by
  cases reads with
  | read launches ends accepted usable =>
    obtain ⟨fileCount, whole⟩ := launches.concludes prepared ends accepted
    rw [outcome_conclude, usable] at whole
    rw [whole] at timed ⊢
    exact succeeded_told timed

theorem execute_law (prepared : Prepared b c r texts)
    (timed : Measured b.world.clock
      ((execute View.whole r .nobody).outcome b).2.world.clock) :
    RunLaw b c r texts ((execute View.whole r .nobody).outcome b).1 := by
  have answered := execute_answered prepared timed
  generalize answer : ((execute View.whole r .nobody).outcome b).1 = e at answered
  refine ⟨fun f => ⟨fun fails => ?_, fun escapes => ?_⟩, fun issues reads => ?_, ?_⟩
  · cases fails
    cases answered with
    | left escapes => exact escapes
  · exact answer ▸ escapes.outcome prepared
  · exact answer ▸ reads.outcome prepared timed
  · rintro unread a rfl
    cases answered with
    | told failed message something =>
      refine ⟨failed, ?_⟩
      rw [message]
      simpa [Json.isBlank] using something
    | read reads => exact (unread ⟨_, reads⟩).elim

end Execution

end LintHub
