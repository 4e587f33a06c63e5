import LintHub.Proofs.Report.Leaks

/-! # The stages of a run

What each stage of a run comes to when nobody listens to it: the run is refused while another one
goes on, or it looks for the program and the files, starts the program, and reads its report.
-/

namespace LintHub

/-- The time between two readings of the clock can be told. -/
def Measured (started now : Binary64) : Prop :=
  ∃ span, Time.Span.ofSeconds? (now.sub started) = some (.ok span)

theorem measured_iff {started now : Binary64} : Measured started now ↔
    ((Time.Span.ofSeconds? (now.sub started)).bind Except.toOption).isSome = true := by
  unfold Measured
  rcases Time.Span.ofSeconds? (now.sub started) with _ | _ | span
  · simp
  · simp [Except.toOption]
  · simp [Except.toOption]

instance (started now : Binary64) : Decidable (Measured started now) :=
  decidable_of_iff _ measured_iff.symm

/-! ## The files -/

/-- A path is too long to be looked at. -/
def Fault.TooLong (f : Fault) : Prop :=
  ∃ p : Path, f = .refused .nameTooLong p.text

theorem isFile_faults (d : Disk) (p : Path) : Faults Fault.TooLong (d.isFile p) :=
  fun _ h => ⟨p, Disk.isFile_error h⟩

theorem listBelow_faults (d : Disk) (source : Path) (l : Location) :
    Faults Fault.TooLong (d.listBelow source l) := by
  unfold Disk.listBelow
  dsimp only
  split
  · next steps _ => exact .error ⟨source.child steps, rfl⟩
  · exact .ok _

theorem sources_faults (d : Disk) (source : Path) (extensions : List String) :
    Faults Fault.TooLong (d.sources source extensions) := by
  refine .bind (isFile_faults d source) fun file => ?_
  cases file with
  | true => exact .pure _
  | false =>
    intro f h
    rcases bind_error_iff.mp h with fails | ⟨directory, is, h⟩
    · exact ⟨source, Disk.status_error (map_error_iff.mp fails)⟩
    · cases directory with
      | false => cases h
      | true =>
        obtain ⟨a, arrived⟩ := Disk.arrive_of_isDirectory is
        rcases bind_error_iff.mp h with fails | ⟨a', -, h⟩
        · cases arrived.symm.trans fails
        · exact Faults.bind (listBelow_faults d source _)
            (fun _ => .filterM fun p => .bind (isFile_faults d p) fun _ => .pure _) f h

namespace Bench

variable {b : Bench} {c : Config} {r : Request}

/-- The bench after a message about the tool. -/
def noted (b : Bench) (level : LogLevel) (message : String) : Bench :=
  let told : LogEvent := ⟨level, .external, message, some b.runner.adapter.name, none, none⟩
  { b with world := b.world.record told }

/-- The bench after a run was let in. -/
def opened (b : Bench) : Bench :=
  { b with runner := { b.runner with running := true, cancelled := false } }

/-- The bench after the program was found at `path`, or nowhere. -/
def ready (b : Bench) (path : String) : Bench :=
  { b with runner := { b.runner with running := true, cancelled := false, path := some path } }

def closed (b : Bench) : Bench :=
  { b with runner := { b.runner with running := false } }

theorem outcome_say (b : Bench) (level : LogLevel) (message : String) :
    (say level message).outcome b = (.ok (), b.noted level message) := rfl

/-! ## The end of a run -/

theorem outcome_since {started : Binary64} (timed : Measured started b.world.clock) :
    ∃ span, (since started).outcome b = (.ok span, b) := by
  obtain ⟨span, told⟩ := timed
  refine ⟨span, ?_⟩
  unfold since
  rw [Act.outcome_bind_ok (Act.outcome_get b), told]
  rfl

/-- Asking for the time changes nothing, whether it can be told or not. -/
theorem outcome_since_state (started : Binary64) (b : Bench) :
    ∃ e, (since started).outcome b = (e, b) := by
  unfold since
  rw [Act.outcome_bind_ok (Act.outcome_get b)]
  rcases Time.Span.ofSeconds? (b.world.clock.sub started) with _ | _ | _ <;> exact ⟨_, rfl⟩

theorem outcome_failed {started : Binary64} (timed : Measured started b.world.clock)
    (message : String) :
    ∃ a, (failed started message).outcome b = (.ok a, b.noted .warning message) ∧
      a.success = false ∧ a.errorMessage = .str message := by
  obtain ⟨span, told⟩ : ∃ span, (since started).outcome (b.noted .warning message) =
      (.ok span, b.noted .warning message) := outcome_since timed
  refine ⟨{ Analysis.failed b.world.stamp b.runner.adapter.name message with
    executionTime := span }, ?_, rfl, rfl⟩
  unfold failed
  rw [Act.outcome_bind_ok (outcome_say b .warning message), Act.outcome_bind_ok told]
  rfl

theorem failed_clock (started : Binary64) (message : String) (b : Bench) :
    ((failed started message).outcome b).2.world.clock = b.world.clock := by
  obtain ⟨e, asked⟩ := outcome_since_state started (b.noted .warning message)
  unfold failed
  rw [Act.outcome_bind_ok (outcome_say b .warning message), Act.outcome_bind, asked]
  cases e <;> rfl

theorem outcome_succeeded {started : Binary64} (timed : Measured started b.world.clock)
    (issues : List Issue) (files : Int) :
    ∃ a, (succeeded started issues files).outcome b = (.ok a, b) ∧
      a.success = true ∧ a.issues = issues := by
  obtain ⟨span, told⟩ := outcome_since timed
  refine ⟨{ Analysis.new b.world.stamp (.str b.runner.adapter.name) with
    issues, filesAnalyzed := files, executionTime := span }, ?_, rfl, rfl⟩
  unfold succeeded
  rw [Act.outcome_bind_ok told]
  rfl

theorem succeeded_clock (started : Binary64) (issues : List Issue) (files : Int) (b : Bench) :
    ((succeeded started issues files).outcome b).2.world.clock = b.world.clock := by
  obtain ⟨e, asked⟩ := outcome_since_state started b
  unfold succeeded
  rw [Act.outcome_bind, asked]
  cases e <;> rfl

/-! ## The program and its arguments -/

/-- Where the program is for a runner: where it was when it was first looked for, or else where it is
now. -/
def seen (b : Bench) : Except Fault String :=
  match b.runner.path with
  | some path => .ok path
  | none => locate b.world b.runner.adapter

/-- The bench after its program was looked for. -/
def looked (b : Bench) : Bench :=
  { b with runner := { b.runner with path := b.seen.toOption } }

/-- Where the program was found is remembered, unless it could not be looked for. -/
theorem outcome_executablePath_eq (b : Bench) : executablePath.outcome b = (b.seen, b.looked) := by
  rcases b with ⟨⟨adapter, config, running, cancelled, known, version⟩, world⟩
  unfold executablePath looked seen
  rw [Act.outcome_bind_ok (Act.outcome_get _)]
  cases known with
  | some known => rfl
  | none =>
    dsimp only
    rw [Act.outcome_bind, Act.outcome_except]
    cases locate world adapter <;> rfl

theorem outcome_isAvailable_eq (b : Bench) :
    isAvailable.outcome b = (b.seen.map (!·.isEmpty), b.looked) := by
  unfold isAvailable
  rw [Act.outcome_bind, outcome_executablePath_eq]
  cases found : b.seen <;> rfl

/-- The program stays where it was found. -/
theorem seen_looked (b : Bench) : b.looked.seen = b.seen := by
  unfold looked
  rcases b with ⟨⟨adapter, config, running, cancelled, known, version⟩, world⟩
  cases known with
  | some path => rfl
  | none =>
    unfold seen
    dsimp only
    cases locate world adapter <;> rfl

theorem outcome_executablePath {path : String} (found : (executablePath.outcome b).1 = .ok path) :
    executablePath.outcome b =
      (.ok path, { b with runner := { b.runner with path := some path } }) := by
  rw [outcome_executablePath_eq] at *
  have seen : b.seen = .ok path := found
  rw [looked, seen]
  rfl

/-- Whether a run goes on makes no difference to where the program is. -/
theorem executablePath_opened (b : Bench) :
    (executablePath.outcome b.opened).1 = (executablePath.outcome b).1 := by
  rw [outcome_executablePath_eq, outcome_executablePath_eq]
  rfl

theorem outcome_isAvailable {path : String} (found : (executablePath.outcome b).1 = .ok path) :
    isAvailable.outcome b.opened = (.ok (!path.isEmpty), b.ready path) := by
  unfold isAvailable
  rw [Act.outcome_bind_ok (outcome_executablePath ((executablePath_opened b).trans found))]
  rfl

theorem outcome_requireConfig (configured : b.runner.config = some c) :
    requireConfig.outcome b = (.ok c, b) := by
  unfold requireConfig
  rw [Act.outcome_bind_ok (Act.outcome_get b)]
  dsimp only
  rw [configured]
  rfl

/-- The command line of a tool whose program is at `path`. -/
def arguments (b : Bench) (c : Config) (r : Request) (path : String) : Except Fault (List Json) := do
  let own ← ownArguments b.world.disk c r
  let configured ← extraArguments c.customOptions
  let requested ← extraArguments (r.optionsFor b.runner.adapter.name)
  return .str (if path.isEmpty then b.runner.adapter.name else path) ::
    own ++ configured ++ requested

theorem outcome_commandLine {path : String} (configured : b.runner.config = some c)
    (found : (executablePath.outcome b).1 = .ok path) :
    (commandLine r).outcome b =
      (b.arguments c r path, { b with runner := { b.runner with path := some path } }) := by
  unfold commandLine arguments
  rw [Act.outcome_bind_ok (outcome_requireConfig configured), Act.outcome_bind_ok (outcome_adapter b),
    Act.outcome_bind_ok (outcome_executablePath found), Act.outcome_bind_ok (Act.outcome_get _)]
  rw [Act.outcome_bind, Act.outcome_except]
  cases ownArguments b.world.disk c r with
  | error f => rfl
  | ok own =>
    dsimp only
    rw [Act.outcome_bind, Act.outcome_except]
    cases extraArguments c.customOptions with
    | error f => rfl
    | ok configured =>
      dsimp only
      rw [Act.outcome_bind, Act.outcome_except]
      cases extraArguments (r.optionsFor b.runner.adapter.name) <;> rfl

/-- A command line that is built starts from where the program is. -/
theorem commandLine_ok {args : List Json} (configured : b.runner.config = some c)
    (built : ((commandLine r).outcome b).1 = .ok args) :
    ∃ path, (executablePath.outcome b).1 = .ok path ∧ b.arguments c r path = .ok args := by
  cases found : (executablePath.outcome b).1 with
  | ok path =>
    rw [outcome_commandLine configured found] at built
    exact ⟨path, rfl, built⟩
  | error f =>
    unfold commandLine at built
    rw [Act.outcome_bind_ok (outcome_requireConfig configured),
      Act.outcome_bind_ok (outcome_adapter b), Act.outcome_bind_error (Prod.ext found rfl)] at built
    cases built

theorem textsFrom_ok {i : Nat} {vs : List Json} {texts : List String}
    (h : textsFrom i vs = .ok texts) : vs = texts.map .str := by
  induction vs generalizing i texts with
  | nil =>
    cases h
    rfl
  | cons v vs ih =>
    cases v with
    | str s =>
      obtain ⟨rest, hrest, h⟩ := bind_ok_iff.mp h
      cases h
      rw [ih hrest]
      rfl
    | _ => cases h

/-- The bench on which the program is started. -/
def begun (b : Bench) (path : String) (texts : List String) : Bench :=
  (b.ready path).noted .info ("Running " ++ String.intercalate " " texts)

end Bench

namespace Execution

open Bench

variable {b : Bench} {c : Config} {r : Request} {path : String} {source : Path}

/-! ## The run -/

theorem outcome_tryStart (b : Bench) :
    tryStart.outcome b = (.ok (!b.runner.running), if b.runner.running then b else b.opened) := by
  unfold tryStart
  rw [Act.outcome_bind_ok (Act.outcome_get b)]
  cases b.runner.running <;> rfl

theorem outcome_execute (configured : b.runner.config = some c) :
    (execute View.whole r .nobody).outcome b =
      if b.runner.running then
        (.ok (Analysis.failed b.world.stamp b.runner.adapter.name "Analysis already running"), b)
      else ((run View.whole c r .nobody).outcome b.opened).map id closed := by
  unfold execute start
  rw [Work.outcome_bind,
    Work.outcome_bind_ok (Work.outcome_whole _ b ▸ outcome_requireConfig configured),
    Work.outcome_bind_ok (Work.outcome_whole _ b ▸ outcome_tryStart b)]
  cases b.runner.running with
  | true => rfl
  | false =>
    rw [if_pos (by decide), Work.outcome_bind_ok (Work.outcome_attempt _ _)]
    rfl

/-- A run up to the program, if nobody is told of the progress. -/
theorem outcome_run_silent {l : Listeners Bench} (silent : l.progress = none)
    (found : (executablePath.outcome b).1 = .ok path)
    (named : Path.ofJson (c.targetFor r).sourcePath = .ok source) :
    (run View.whole c r l).outcome b.opened =
      if path.isEmpty then
        (failed b.world.clock
          s!"{b.runner.adapter.name} not installed. {b.runner.adapter.requirements}").outcome
            (b.ready path)
      else
        match b.world.disk.sources source b.runner.adapter.extensions with
        | .error f => (.error f, b.ready path)
        | .ok files =>
          (launch View.whole c r l b.world.clock source files.length).outcome (b.ready path) := by
  have asked : adapter.outcome b.opened = (.ok b.runner.adapter, b.opened) := rfl
  have clock : (do return (← get).world.clock : Act Bench Binary64).outcome b.opened =
      (.ok b.world.clock, b.opened) := rfl
  unfold run
  rw [Work.outcome_bind_ok (Work.outcome_whole _ _ ▸ asked)]
  rw [Work.outcome_bind_ok (Work.outcome_whole _ _ ▸ clock)]
  rw [Work.outcome_bind_ok (Work.outcome_whole _ _ ▸ outcome_isAvailable found), silent]
  cases missing : path.isEmpty with
  | true => rfl
  | false =>
    rw [if_neg (by decide), if_neg (by decide), Work.outcome_bind, Work.outcome_whole]
    rw [Act.outcome_bind_ok (by rw [named]; rfl), Act.outcome_bind_ok (Act.outcome_get _)]
    rw [Act.outcome_bind, Act.outcome_except]
    have same : (b.ready path).world.disk.sources source b.runner.adapter.extensions =
        b.world.disk.sources source b.runner.adapter.extensions := rfl
    rw [same]
    cases b.world.disk.sources source b.runner.adapter.extensions with
    | error f => rfl
    | ok files => rfl

theorem outcome_run (found : (executablePath.outcome b).1 = .ok path)
    (named : Path.ofJson (c.targetFor r).sourcePath = .ok source) :
    (run View.whole c r .nobody).outcome b.opened =
      if path.isEmpty then
        (failed b.world.clock
          s!"{b.runner.adapter.name} not installed. {b.runner.adapter.requirements}").outcome
            (b.ready path)
      else
        match b.world.disk.sources source b.runner.adapter.extensions with
        | .error f => (.error f, b.ready path)
        | .ok files =>
          (launch View.whole c r .nobody b.world.clock source files.length).outcome
            (b.ready path) :=
  outcome_run_silent rfl found named

/-! ## The program -/

section started

variable {args : List Json} {texts : List String} {started : Binary64} {fileCount : Int}
  {ran : Bench} (configured : b.runner.config = some c)
  (built : b.arguments c r path = .ok args) (textual : textsFrom 0 args = .ok texts)
include configured built textual

/-- The command is put together and told of. -/
theorem outcome_command :
    (View.whole.work (do
      let texts ← (textsFrom 0 (← commandLine r) : Except Fault (List String))
      say .info ("Running " ++ String.intercalate " " texts)
      return texts) : Work Bench (List String)).outcome (b.ready path) =
        (.ok texts, b.begun path texts) := by
  have line : (commandLine r).outcome (b.ready path) = (.ok args, b.ready path) := by
    have remembered : (executablePath.outcome (b.ready path)).1 = .ok path := rfl
    have line := outcome_commandLine (b := b.ready path) (r := r) configured remembered
    exact line.trans (Prod.ext built rfl)
  rw [Work.outcome_whole, Act.outcome_bind_ok line, Act.outcome_bind_ok (by rw [textual]; rfl)]
  rfl

theorem outcome_launch :
    (launch View.whole c r .nobody started source fileCount).outcome (b.ready path) =
      match (runProgram worldView texts c.timeout).outcome (b.begun path texts) with
      | (.error f, ran) =>
        if f.isOneOf [.timeout] then
          (failed started
            s!"{b.runner.adapter.name} timed out after {Text.intText c.timeout}s").outcome ran
        else if f.isOneOf [.system] then
          (failed started
            s!"Failed to start {b.runner.adapter.name}: {f.message}").outcome ran
        else (.error f, ran)
      | (.ok done, ran) =>
        if Adapter.acceptsExit done.exit then
          (conclude View.whole c r .nobody started source fileCount done).outcome ran
        else
          let why := complaint done.stderr
          (failed started
            s!"{b.runner.adapter.name} exited with code {Text.intText done.exit}: {why}").outcome
              ran := by
  unfold launch
  rw [Work.outcome_bind_ok (Work.outcome_whole _ _ ▸ outcome_adapter (b.ready path))]
  rw [Work.outcome_bind_ok (outcome_command configured built textual),
    Work.outcome_bind_ok (Work.outcome_attempt _ _)]
  rw [show (View.whole.trans worldView : View Bench World) = worldView from rfl]
  rcases (runProgram worldView texts c.timeout).outcome (b.begun path texts) with ⟨f | done, ran⟩
  · dsimp only
    split
    · rfl
    · split <;> rfl
  · dsimp only
    cases Adapter.acceptsExit done.exit <;> rfl

end started

theorem outcome_conclude (ran : Bench) (started : Binary64) (fileCount : Int) (done : Finished) :
    (conclude View.whole c r .nobody started source fileCount done).outcome ran =
      match (judge c r source done).outcome ran with
      | (.error f, judged) =>
        if f.isOneOf reportFaults then
          (failed started
            s!"Could not parse {ran.runner.adapter.name} output: {f.message}").outcome judged
        else (.error f, judged)
      | (.ok (issues, files), judged) =>
        let told := s!"{ran.runner.adapter.name} found {Text.natText issues.length} issues"
        (succeeded started issues (files.getD fileCount)).outcome (judged.noted .info told) := by
  unfold conclude
  rw [Work.outcome_bind_ok (Work.outcome_whole _ _ ▸ outcome_adapter ran)]
  rw [Work.outcome_bind_ok (Work.outcome_whole _ _ ▸ Act.outcome_attempt _ _)]
  rcases (judge c r source done).outcome ran with ⟨f | ⟨issues, files⟩, judged⟩
  · dsimp only
    split <;> rfl
  · rfl

/-! ## The report -/

theorem judge_leaks_iff {b : Bench} {done : Finished} {f : Fault} :
    (((judge c r source done).outcome b).1 = .error f ∧ f.Leaks) ↔
      ∃ text kept, (reportText c r done.stdout).outcome b = (.ok text, kept) ∧
        kept.runner.adapter.Leaks kept.world.disk (some source) text f := by
  unfold judge
  rw [Act.outcome_bind]
  constructor
  · rintro ⟨h, leaks⟩
    rcases printed : (reportText c r done.stdout).outcome b with ⟨g | text, kept⟩
    · rw [printed] at h
      cases h
      have caught := reportText_faults c r done.stdout b f (by rw [printed])
      exact (leaks.not_caught caught).elim
    · rw [printed] at h
      exact ⟨text, kept, rfl, readReport_leaks_iff.mp ⟨h, leaks⟩⟩
  · rintro ⟨text, kept, printed, leaks⟩
    rw [printed]
    exact readReport_leaks_iff.mpr leaks

theorem judge_faults (source : Path) (done : Finished) :
    Act.Faults Fault.OfReport (judge c r source done) :=
  .bind (fun b => (reportText_faults c r done.stdout b).report) fun _ => readReport_faults _ _

end Execution

end LintHub
