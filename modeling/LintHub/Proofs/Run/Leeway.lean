import LintHub.Proofs.Work.Alike
import LintHub.Tool.Execution

/-! # What a run does not notice

A run looks at what its request makes of the configuration, and at no event that was reported
before. Benches that differ in nothing else are worked on alike, whoever listens, as long as those
who listen are alike themselves.
-/

namespace LintHub

/-- Two requests, each with a configuration, that order the same. -/
structure SameOrder (r r' : Request) (c c' : Config) : Prop where
  target : c.targetFor r = c'.targetFor r'
  toolOptions : r.toolOptions = r'.toolOptions
  toolName : c.toolName = c'.toolName
  customOptions : c.customOptions = c'.customOptions
  timeout : c.timeout = c'.timeout
  special : c.special = c'.special

/-- In what two benches may differ without a run noticing, on each for a request of its own. -/
structure Leeway (r r' : Request) where
  config : Option Config → Option Config → Prop
  log : List LogEvent → List LogEvent → Prop
  same : ∀ {o o'}, config o o' → Option.Rel (SameOrder r r') o o'
  next : ∀ {xs ys} (e : LogEvent), log xs ys → log (xs ++ [e]) (ys ++ [e])

variable {σ τ α : Type} {r r' : Request} {k : Leeway r r'}

namespace Leeway

inductive AlikeWorld (k : Leeway r r') (w : World) : World → Prop where
  | mk {log' : List LogEvent} (log : k.log w.log log') : AlikeWorld k w { w with log := log' }

inductive Alike (k : Leeway r r') (b : Bench) : Bench → Prop where
  | mk {config' : Option Config} {log' : List LogEvent}
      (config : k.config b.runner.config config') (log : k.log b.world.log log') :
      Alike k b ⟨{ b.runner with config := config' }, { b.world with log := log' }⟩

/-- Benches that differ in their configurations only. -/
def configs {config : Option Config → Option Config → Prop}
    (same : ∀ {o o'}, config o o' → Option.Rel (SameOrder r r') o o') : Leeway r r' where
  config
  log := Eq
  same
  next e equal := congrArg (· ++ [e]) equal

theorem sameOrder_refl {o o' : Option Config} (equal : o = o') :
    Option.Rel (SameOrder r r) o o' := by
  subst equal
  cases o with
  | none => exact .none
  | some c => exact .some ⟨rfl, rfl, rfl, rfl, rfl, rfl⟩

/-- Benches that do not differ at all. -/
def exact (r : Request) : Leeway r r :=
  configs sameOrder_refl

theorem exact_alike : (exact r).Alike = Eq := by
  funext b b'
  refine propext ⟨?_, ?_⟩
  · rintro ⟨rfl, rfl⟩
    rfl
  · rintro rfl
    exact ⟨rfl, rfl⟩

theorem worldView_match : View.Match k.Alike k.AlikeWorld Bench.worldView Bench.worldView where
  get := fun ⟨_, log⟩ => ⟨log⟩
  set := fun ⟨config, _⟩ ⟨log⟩ => ⟨config, log⟩

end Leeway

/-! ## The world -/

theorem report_alike (e : LogEvent) : Act.Alike k.AlikeWorld (report e) (report e) :=
  .modify fun _ _ ⟨log⟩ => ⟨k.next e log⟩

theorem note_alike (level : LogLevel) (source : LogSource) (message : String)
    (tool : Option String) :
    Act.Alike k.AlikeWorld (note level source message tool) (note level source message tool) :=
  report_alike _

theorem BanditReport.reportSkipped_alike (v : Json) :
    Act.Alike k.AlikeWorld (reportSkipped v) (reportSkipped v) :=
  .bind (.lift _) fun _ => note_alike _ _ _ _

theorem BanditReport.read_alike (root : Option Path) (text : String) :
    Act.Alike k.AlikeWorld (read root text) (read root text) := by
  unfold read
  refine .bind (.lift _) fun doc => .bind (.lift _) fun d => .bind (.lift _) fun errors => ?_
  refine .bind (.forM reportSkipped_alike) fun _ => .get ?_
  rintro w _ ⟨-⟩
  exact .bind (.lift _) fun found => .bind (.lift _) fun issues => .bind (.lift _) fun files =>
    .pure _

theorem startScripted_alike (command : List String) (timeout : Int) :
    Act.Alike k.AlikeWorld (startScripted command timeout) (startScripted command timeout) := by
  unfold startScripted
  refine .bind (.modify fun _ _ ⟨log⟩ => ⟨log⟩) fun _ => .modifyGet ?_
  rintro ⟨disk, settings, stamp, programs, clock, live, versionRun, runs, events, calls⟩ _ ⟨log⟩
  unfold World.nextRun
  split
  · exact ⟨rfl, ⟨log⟩⟩
  · cases runs with
    | nil => exact ⟨rfl, ⟨log⟩⟩
    | cons run rest => exact ⟨rfl, ⟨log⟩⟩

theorem finishScripted_alike (command : List String) (timeout : Int) (run : Run) :
    Act.Alike k.AlikeWorld (finishScripted command timeout run)
      (finishScripted command timeout run) := by
  unfold finishScripted
  refine .bind (.modify fun _ _ ⟨log⟩ => ⟨log⟩) fun _ => ?_
  cases run.ending with
  | raises f => exact .throw f
  | timesOut => exact .throw _
  | exits exit stdout stderr =>
    cases run.writes with
    | none => exact .pure _
    | some named =>
      dsimp only
      refine .get ?_
      rintro w _ ⟨log⟩
      refine .bind (.lift _) fun disk => .bind (.lift _) fun disk => ?_
      exact .bind (.set ⟨log⟩) fun _ => .pure _

theorem runLive_alike (command : List String) (timeout : Int) :
    Act.Alike k.AlikeWorld (runLive command timeout) (runLive command timeout) := by
  have disks : View.Match k.AlikeWorld Eq diskView diskView := {
    get := fun ⟨_⟩ => rfl
    set := fun ⟨log⟩ same => by subst same; exact ⟨log⟩ }
  exact .view disks (.same _)

theorem runProgram_alike {R : σ → τ → Prop} {u : View σ World} {u' : View τ World}
    (worlds : View.Match R k.AlikeWorld u u') (command : List String) (timeout : Int) :
    Work.Alike R (runProgram u command timeout) (runProgram u' command timeout) := by
  unfold runProgram
  refine .get worlds ?_
  rintro w _ ⟨log⟩
  split
  · exact .work worlds (runLive_alike _ _)
  · refine .bind (.work worlds (startScripted_alike _ _)) fun run => ?_
    dsimp only
    split
    · exact .bind .pause fun _ => .work worlds (finishScripted_alike _ _ _)
    · exact .work worlds (finishScripted_alike _ _ _)

/-! ## The bench -/

namespace Bench

open Leeway

theorem inWorld_alike {m : Act World α} (hm : Act.Alike k.AlikeWorld m m) :
    Act.Alike k.Alike (inWorld m) (inWorld m) :=
  .view worldView_match hm

theorem adapter_alike : Act.Alike k.Alike adapter adapter :=
  .get fun _ _ ⟨_, _⟩ => .pure _

theorem say_alike (level : LogLevel) (message : String) :
    Act.Alike k.Alike (say level message) (say level message) :=
  .bind adapter_alike fun _ => inWorld_alike (note_alike _ _ _ _)

theorem executablePath_alike : Act.Alike k.Alike executablePath executablePath := by
  unfold executablePath
  refine .get ?_
  rintro b _ ⟨config, log⟩
  dsimp only
  cases b.runner.path with
  | some path => exact .pure path
  | none =>
    refine .bind (.lift _) fun path => .bind (.modify ?_) fun _ => .pure _
    rintro b' _ ⟨config', log'⟩
    exact ⟨config', log'⟩

theorem isAvailable_alike : Act.Alike k.Alike isAvailable isAvailable :=
  .bind executablePath_alike fun _ => .pure _

theorem since_alike (started : Binary64) : Act.Alike k.Alike (since started) (since started) := by
  refine .get ?_
  rintro b _ ⟨config, log⟩
  dsimp only
  cases Time.Span.ofSeconds? (b.world.clock.sub started) with
  | none => exact .throw _
  | some e =>
    cases e with
    | ok span => exact .pure span
    | error f => exact .throw _

theorem stamp_alike : Act.Alike k.Alike stamp stamp :=
  .get fun _ _ ⟨_, _⟩ => .pure _

theorem failed_alike (started : Binary64) (message : String) :
    Act.Alike k.Alike (failed started message) (failed started message) :=
  .bind (say_alike _ _) fun _ => .bind (since_alike started) fun _ =>
    .bind stamp_alike fun _ => .bind adapter_alike fun _ => .pure _

theorem succeeded_alike (started : Binary64) (issues : List Issue) (files : Int) :
    Act.Alike k.Alike (succeeded started issues files) (succeeded started issues files) :=
  .bind (since_alike started) fun _ => .bind stamp_alike fun _ => .bind adapter_alike fun _ =>
    .pure _

theorem busy_alike : Act.Alike k.Alike Execution.busy Execution.busy :=
  .bind stamp_alike fun _ => .bind adapter_alike fun _ => .pure _

theorem tryStart_alike : Act.Alike k.Alike tryStart tryStart := by
  refine .get ?_
  rintro b _ ⟨config, log⟩
  dsimp only
  cases b.runner.running with
  | true => exact .pure false
  | false =>
    refine .bind (.modify ?_) fun _ => .pure true
    rintro b' _ ⟨config', log'⟩
    exact ⟨config', log'⟩

theorem finish_alike : Act.Alike k.Alike finish finish := by
  refine .modify ?_
  rintro b _ ⟨config, log⟩
  exact ⟨config, log⟩

/-- Both have a configuration, and then order the same, or none. -/
theorem requireConfig_alike {b b' : Bench} (alike : k.Alike b b') :
    (∃ c c', requireConfig.outcome b = (.ok c, b) ∧ requireConfig.outcome b' = (.ok c', b') ∧
        SameOrder r r' c c') ∨
      ∃ f, requireConfig.outcome b = (.error f, b) ∧ requireConfig.outcome b' = (.error f, b') := by
  obtain ⟨config, log⟩ := alike
  have same := k.same config
  obtain ⟨⟨adapter, config, running, cancelled, path, version⟩, world⟩ := b
  cases same with
  | none => exact .inr ⟨_, rfl, rfl⟩
  | some same => exact .inl ⟨_, _, rfl, rfl, same⟩

theorem ownArguments_same {c c' : Config} (same : SameOrder r r' c c') (disk : Disk) :
    ownArguments disk c r = ownArguments disk c' r' := by
  unfold ownArguments
  rw [same.target, same.special]

/-- The command line is built from the configuration that the tool has. -/
theorem commandLine_alike : Act.Alike k.Alike (commandLine r) (commandLine r') := by
  intro b b' alike
  unfold commandLine
  obtain ⟨c, c', known, known', same⟩ | ⟨f, bare, bare'⟩ := requireConfig_alike alike
  · rw [Act.outcome_bind_ok known, Act.outcome_bind_ok known', same.customOptions]
    refine Act.Alike.bind adapter_alike (fun a => .bind executablePath_alike fun path => ?_) _ _
      alike
    refine .get ?_
    rintro b _ ⟨config, log⟩
    dsimp only
    rw [ownArguments_same same, show r.optionsFor a.name = r'.optionsFor a.name by
      unfold Request.optionsFor; rw [same.toolOptions]]
    exact .bind (.lift _) fun _ => .bind (.lift _) fun _ => .bind (.lift _) fun _ => .pure _
  · rw [Act.outcome_bind_error bare, Act.outcome_bind_error bare']
    exact ⟨rfl, alike⟩

theorem readReport_alike (root : Option Path) (text : String) :
    Act.Alike k.Alike (readReport root text) (readReport root text) := by
  unfold readReport
  refine .bind adapter_alike fun a => ?_
  cases a with
  | ruff =>
    refine .get ?_
    rintro b _ ⟨config, log⟩
    exact .bind (.lift _) fun _ => .pure _
  | bandit => exact inWorld_alike (BanditReport.read_alike root text)

variable {c c' : Config} (same : SameOrder r r' c c')

include same

theorem reportText_alike (printed : String) :
    Act.Alike k.Alike (reportText c r printed) (reportText c' r' printed) := by
  unfold reportText
  rw [same.target]
  refine .bind adapter_alike fun a => ?_
  cases a with
  | ruff =>
    dsimp only
    split
    · refine .bind (.lift _) fun p => .get ?_
      rintro b _ ⟨config, log⟩
      refine .bind (.lift _) fun disk => .bind (.modify ?_) fun _ => .pure _
      rintro b' _ ⟨config', log'⟩
      exact ⟨config', log'⟩
    · exact .pure _
  | bandit =>
    dsimp only
    split
    · exact .pure _
    · refine .bind (.lift _) fun p => .get ?_
      rintro b _ ⟨config, log⟩
      refine .bind (.lift _) fun there => ?_
      cases there with
      | true => exact .lift _
      | false => exact .pure _

theorem judge_alike (source : Path) (done : Finished) :
    Act.Alike k.Alike (judge c r source done) (judge c' r' source done) :=
  .bind (reportText_alike same _) fun _ => readReport_alike _ _

end Bench

/-! ## The run -/

namespace Execution

open Leeway Bench

/-- Who listens on the one side and on the other is told of the same, to the same effect. -/
structure Hearing (k : Leeway r r') (R : σ → τ → Prop) (u : View σ Bench) (u' : View τ Bench)
    (l : Listeners σ) (l' : Listeners τ) : Prop where
  progress : ∀ p, Work.Alike R (emit u l.progress p) (emit u' l'.progress p)
  output : ∀ (lines : List String) {w : Work σ Analysis} {w' : Work τ Analysis}, Work.Alike R w w' →
    Work.Alike R
      (match l.output with
        | none => w
        | some f => lines.forM f >>= fun _ => w)
      (match l'.output with
        | none => w'
        | some f => lines.forM f >>= fun _ => w')

variable {R : σ → τ → Prop} {u : View σ Bench} {u' : View τ Bench} {l : Listeners σ}
  {l' : Listeners τ} (benches : View.Match R k.Alike u u') (hearing : Hearing k R u u' l l')
  {c c' : Config} (same : SameOrder r r' c c')

include benches hearing same

theorem conclude_alike (started : Binary64) (source : Path) (fileCount : Int) (done : Finished) :
    Work.Alike R (conclude u c r l started source fileCount done)
      (conclude u' c' r' l' started source fileCount done) := by
  unfold conclude
  refine .bind (.work benches adapter_alike) fun a => ?_
  refine .bind (.work benches (.attempt (judge_alike same source done))) fun e => ?_
  cases e with
  | ok found =>
    refine .bind (hearing.progress _) fun _ => .work benches ?_
    exact .bind (say_alike _ _) fun _ => succeeded_alike _ _ _
  | error f =>
    dsimp only
    split
    · exact .work benches (failed_alike _ _)
    · exact .throw f

theorem launch_alike (started : Binary64) (source : Path) (fileCount : Int) :
    Work.Alike R (launch u c r l started source fileCount)
      (launch u' c' r' l' started source fileCount) := by
  unfold launch
  rw [← same.timeout]
  refine .bind (.work benches adapter_alike) fun a => ?_
  refine .bind (.work benches ?_) fun command => ?_
  · exact .bind commandLine_alike fun _ => .bind (.lift _) fun _ =>
      .bind (say_alike _ _) fun _ => .pure _
  · refine .bind (.attempt (runProgram_alike (benches.trans worldView_match) _ _)) fun e => ?_
    cases e with
    | error f =>
      dsimp only
      split
      · exact .work benches (failed_alike _ _)
      · split
        · exact .work benches (failed_alike _ _)
        · exact .throw f
    | ok done =>
      refine hearing.output (Text.lines done.stdout ++ Text.lines done.stderr) ?_
      split
      · exact conclude_alike benches hearing same started source fileCount done
      · exact .work benches (failed_alike _ _)

theorem run_alike : Work.Alike R (run u c r l) (run u' c' r' l') := by
  unfold run
  rw [← same.target]
  refine .bind (.work benches adapter_alike) fun a => ?_
  refine .bind (.work benches (.get fun _ _ ⟨_, _⟩ => .pure _)) fun started => ?_
  refine .bind (.work benches isAvailable_alike) fun found => ?_
  split
  · exact .work benches (failed_alike _ _)
  · refine .bind (.work benches (.bind (.lift _) fun source => .get ?_)) fun p => ?_
    · rintro b _ ⟨config, log⟩
      exact .bind (.lift _) fun _ => .pure _
    · refine .bind (hearing.progress _) fun _ => ?_
      refine .bind (.work benches (.get fun _ _ ⟨_, _⟩ => .pure _)) fun stopped => ?_
      split
      · exact .work benches (failed_alike _ _)
      · exact launch_alike benches hearing same started _ _

omit same in
theorem start_alike : Work.Alike R (start u r l) (start u' r' l') := by
  intro s t related
  have alike := benches.get related
  unfold start
  obtain ⟨c, c', known, known', same⟩ | ⟨f, bare, bare'⟩ := requireConfig_alike alike
  · have asked : (u.work requireConfig).outcome s = (.ok c, u.set s (u.get s)) := by
      rw [Work.outcome_work, known]
    have asked' : (u'.work requireConfig).outcome t = (.ok c', u'.set t (u'.get t)) := by
      rw [Work.outcome_work, known']
    rw [Work.outcome_bind_ok asked, Work.outcome_bind_ok asked']
    refine Work.Alike.bind (.work benches tryStart_alike) (fun free => ?_) _ _
      (benches.set related alike)
    split
    · refine .bind (.attempt (run_alike benches hearing same)) fun outcome => ?_
      exact .bind (.work benches finish_alike) fun _ => .pure _
    · exact .bind (.work benches busy_alike) fun _ => .pure _
  · have asked : (u.work requireConfig).outcome s = (.error f, u.set s (u.get s)) := by
      rw [Work.outcome_work, bare]
    have asked' : (u'.work requireConfig).outcome t = (.error f, u'.set t (u'.get t)) := by
      rw [Work.outcome_work, bare']
    rw [Work.outcome_bind_error asked, Work.outcome_bind_error asked']
    exact ⟨rfl, benches.set related alike⟩

omit same in
theorem execute_alike : Work.Alike R (execute u r l) (execute u' r' l') :=
  .bind (start_alike benches hearing) fun e => .ofExcept e

end Execution

end LintHub
