import LintHub.Proofs.Run.Frame
import LintHub.Proofs.Work.Account

/-! # Who uses a tool

Callers run a tool, ask its run to stop, or do something else with it, all of them at the same time.
Their accounts tell what each step is and on which benches it began and ended; `Allows` is the rule
that they keep to.
-/

namespace LintHub.Execution

open Bench

variable {α : Type}

/-- What a step is. -/
inductive What where
  /-- A caller asks for the configuration, which is there or not. -/
  | asks (configured : Bool)
  | starts
  | refused
  /-- A run looks whether it was asked to stop. -/
  | checks (asked : Bool)
  | finishes
  /-- The run that goes on is asked to stop, if one does. -/
  | cancels (stops : Bool)
  /-- A step that changes nothing. -/
  | looks
  | other
  deriving DecidableEq

structure Told where
  what : What
  before : Bench
  after : Bench

/-- How far a caller has come. -/
inductive Part where
  | fresh
  /-- The tool was configured. -/
  | ready
  /-- The tool was not configured. -/
  | bare
  | inside
  | past
  | refused
  | asked (stops : Bool)
  | aside
  deriving DecidableEq

def Part.next (p : Part) (e : Told) : Part :=
  match p, e.what with
  | .fresh, .asks configured => if configured then .ready else .bare
  | .fresh, .cancels stops => .asked stops
  | .fresh, .other => .aside
  | .ready, .starts => .inside
  | .ready, .refused => .refused
  | .inside, .finishes => .past
  | p, _ => p

/-- What it does to ask the run that goes on to stop. -/
structure Cancels (b b' : Bench) : Prop where
  adapter : b'.runner.adapter = b.runner.adapter
  configured : b.runner.config.isSome = true → b'.runner.config.isSome = true
  running : b'.runner.running = b.runner.running
  cancelled : b'.runner.cancelled = (b.runner.cancelled || b.runner.running)

/-- What those may do who listen to a run: ask it to stop, but neither start nor finish it. -/
def Minds (b b' : Bench) : Prop :=
  Leaves b b' ∨ Cancels b b'

/-- The rule: who may take which step, and what it does. -/
inductive Allows : Part → Bench → Told → Bench → Prop where
  | asks (b : Bench) : Allows .fresh b ⟨.asks b.runner.config.isSome, b, b⟩ b
  | starts {b : Bench} (free : b.runner.running = false) :
    Allows .ready b ⟨.starts, b, b.opened⟩ b.opened
  | refused {b : Bench} (busy : b.runner.running = true) : Allows .ready b ⟨.refused, b, b⟩ b
  | checks (b : Bench) : Allows .inside b ⟨.checks b.runner.cancelled, b, b⟩ b
  | finishes (b : Bench) : Allows .inside b ⟨.finishes, b, b.closed⟩ b.closed
  | cancels {p : Part} {b b' : Bench} (who : p = .fresh ∨ p = .inside) (does : Cancels b b') :
    Allows p b ⟨.cancels b.runner.running, b, b'⟩ b'
  | looks (p : Part) (b : Bench) : Allows p b ⟨.looks, b, b⟩ b
  | other {p : Part} {b b' : Bench} (who : p = .fresh ∨ p = .inside ∨ p = .aside)
    (leaves : Leaves b b') : Allows p b ⟨.other, b, b'⟩ b'

/-! ## Accounts -/

/-- Work whose steps tell what they are. -/
def telling (what : Bench → Bench → What) (w : Work Bench α) : Account Bench Told α :=
  .of (fun b b' => ⟨what b b', b, b'⟩) w

/-- What the steps of a run are besides its start, its check and its end: one after which it counts
as asked to stop is a cancel. -/
def within (b b' : Bench) : What :=
  if b'.runner.cancelled = b.runner.cancelled then .other else .cancels b.runner.running

def runAccount (c : Config) (r : Request) (l : Listeners Bench) : Account Bench Told Analysis := do
  let a ← telling within (View.whole.work adapter)
  let started ← telling within (View.whole.work do return (← get).world.clock)
  if !(← telling within (View.whole.work isAvailable)) then
    telling within
      (View.whole.work (failed started s!"{a.name} not installed. {a.requirements}"))
  else
    let (source, files) ← telling within (View.whole.work do
      let source ← (Path.ofJson (c.targetFor r).sourcePath : Except Fault Path)
      let disk := (← get).world.disk
      let files ← (disk.sources source a.extensions : Except Fault (List Path))
      return (source, files))
    let fileCount : Int := files.length
    telling within (emit View.whole l.progress ⟨fileCount, 0, "", "Starting " ++ a.name⟩)
    if ← telling (fun b _ => .checks b.runner.cancelled)
        (View.whole.work do return (← get).runner.cancelled) then
      telling within (View.whole.work (failed started "Analysis cancelled"))
    else telling within (launch View.whole c r l started source fileCount)

def startAccount (r : Request) (l : Listeners Bench) :
    Account Bench Told (Except Fault Analysis) := do
  let c ← telling (fun b _ => .asks b.runner.config.isSome) (View.whole.work requireConfig)
  if ← telling (fun b _ => if b.runner.running then .refused else .starts)
      (View.whole.work tryStart) then
    let outcome ← (runAccount c r l).attempt
    telling (fun _ _ => .finishes) (View.whole.work finish)
    return outcome
  else
    return .ok (← telling (fun _ _ => .looks) (View.whole.work busy))

/-- What a caller is answered. -/
inductive Answer where
  | analysis (a : Analysis)
  | stopped (stops : Bool)
  | nothing

/-- What a tool is used for. -/
inductive Use where
  /-- A run that is waited for, or one in the background with those who listen to it. -/
  | run (r : Request) (l : Listeners Bench)
  | stop
  | other (w : Work Bench Unit)

namespace Use

def work : Use → Work Bench Answer
  | run r l => .analysis <$> execute View.whole r l
  | stop => .stopped <$> View.whole.work Bench.cancel
  | other w => (fun _ => .nothing) <$> w

def account : Use → Account Bench Told Answer
  | run r l => .analysis <$> (startAccount r l >>= Account.ofExcept)
  | stop => .stopped <$>
      telling (fun b _ => .cancels b.runner.running) (View.whole.work Bench.cancel)
  | other w => (fun _ => .nothing) <$> telling (fun _ _ => .other) w

end Use

@[simp] theorem erase_telling (what : Bench → Bench → What) (w : Work Bench α) :
    (telling what w).erase = w :=
  Account.erase_of _ w

theorem erase_runAccount (c : Config) (r : Request) (l : Listeners Bench) :
    (runAccount c r l).erase = run View.whole c r l := by
  unfold runAccount run
  simp only [Account.erase_bind, erase_telling]
  congr 1
  funext a
  congr 1
  funext started
  congr 1
  funext found
  cases found with
  | false => simp
  | true =>
    simp only [Bool.not_true, Bool.false_eq_true, if_false, Account.erase_bind, erase_telling]
    congr 1
    funext p
    congr 1
    funext _
    congr 1
    funext stopped
    cases stopped <;> simp

theorem erase_startAccount (r : Request) (l : Listeners Bench) :
    (startAccount r l).erase = start View.whole r l := by
  unfold startAccount start
  simp only [Account.erase_bind, erase_telling]
  congr 1
  funext c
  congr 1
  funext free
  cases free <;> simp [erase_runAccount]

/-- Forgetting what is told, an account is the use itself. -/
theorem Use.erase_account (u : Use) : u.account.erase = u.work := by
  cases u with
  | run r l => simp [account, work, execute, erase_startAccount]
  | stop => simp [account, work]
  | other w => simp [account, work]

/-! ## Every use keeps to the rule -/

theorem moves_minds (b b' : Bench) (h : Moves b b') : Minds b b' := .inl h.leaves

theorem Cancels.leaves {b b' : Bench} (h : Cancels b b')
    (same : b'.runner.cancelled = b.runner.cancelled) : Leaves b b' :=
  ⟨h.adapter, h.configured, h.running, same⟩

theorem within_allows {b b' : Bench} (h : Minds b b') :
    Allows .inside b ⟨within b b', b, b'⟩ b' := by
  unfold within
  split
  · next same =>
    rcases h with leaves | cancels
    · exact .other (.inr (.inl rfl)) leaves
    · exact .other (.inr (.inl rfl)) (cancels.leaves same)
  · next other =>
    rcases h with leaves | cancels
    · exact absurd leaves.cancelled other
    · exact .cancels (.inr rfl) cancels

/-- What a use comes to. `a` is the tool. -/
structure Ended (a : Adapter) (p : Part) (e : Except Fault Answer) : Prop where
  finished : p ≠ .inside
  bare : p = .bare → e = .error (.configMissing a.name)
  refused : p = .refused →
    ∃ stamp, e = .ok (.analysis (Analysis.failed stamp a.name "Analysis already running"))
  asked : ∀ stops, p = .asked stops → e = .ok (.stopped stops)

section
variable {a : Adapter}

/-- A run keeps to the rule on benches with the tool `a`. -/
abbrev Keeps (a : Adapter) (post : Part → Except Fault α → Prop) (p : Part)
    (w : Account Bench Told α) : Prop :=
  w.run.Leads (fun b => b.runner.adapter = a) Allows Part.next post p

theorem within_keeps {w : Work Bench α} (hw : Work.Within Minds w) :
    Keeps a (fun p _ => p = .inside) .inside (telling within w) := by
  refine Account.leads_of (I := fun p => p = Part.inside) hw ?_ ?_ rfl
  · rintro p b b' rfl -
    unfold within
    split <;> rfl
  · rintro p b b' rfl - minds
    exact within_allows minds

theorem calmly {m : Act Bench α} (hm : Act.Within Rests m) :
    Keeps a (fun p _ => p = .inside) .inside (telling within (View.whole.work m)) :=
  within_keeps (rests_within moves_minds hm)

theorem runAccount_keeps (c : Config) (r : Request) {l : Listeners Bench} (hl : l.Within Minds) :
    Keeps a (fun p _ => p = .inside) .inside (runAccount c r l) := by
  have stays : ∀ (p : Part) (f : Fault), p = .inside → p = .inside := fun _ _ h => h
  unfold runAccount
  refine Account.leads_bind (calmly adapter_rests) ?_ stays
  rintro p tool rfl
  refine Account.leads_bind (calmly fun b => rfl) ?_ stays
  rintro p started rfl
  have looks := moves_within (v := View.whole) moves_minds fun b => (isAvailable_looks b).moves
  refine Account.leads_bind (within_keeps looks) ?_ stays
  rintro p found rfl
  cases found with
  | false => exact calmly (failed_rests _ _)
  | true =>
    refine Account.leads_bind (calmly ?_) ?_ stays
    · refine Rests.bind (Rests.except _) fun source => Rests.bind Rests.get fun b => ?_
      exact Rests.bind (Rests.except _) fun files => Rests.pure _
    rintro p ⟨source, files⟩ rfl
    refine Account.leads_bind
      (within_keeps (emit_within moves_minds hl.progress _)) ?_ stays
    rintro p _ rfl
    have checked : Keeps a (fun p _ => p = .inside) .inside
        (telling (fun b _ => .checks b.runner.cancelled)
          (View.whole.work do return (← get).runner.cancelled)) :=
      Account.leads_step fun b _ => ⟨_, b, rfl, .checks b, rfl⟩
    refine Account.leads_bind checked ?_ stays
    rintro p stopped rfl
    cases stopped with
    | true => exact calmly (failed_rests _ _)
    | false => exact within_keeps (launch_within moves_minds hl ..)

theorem outcome_cancel (b : Bench) : ∃ b', Bench.cancel.outcome b = (.ok b.runner.running, b') ∧
    Cancels b b' := by
  unfold Bench.cancel
  rw [Act.outcome_bind_ok (Act.outcome_get b)]
  cases running : b.runner.running with
  | true => exact ⟨_, rfl, rfl, fun h => h, rfl, by rw [running, Bool.or_true]; rfl⟩
  | false => exact ⟨b, rfl, rfl, fun h => h, rfl, by rw [running, Bool.or_false]⟩

/-- A caller finds the tool configured or not. -/
theorem asks_keeps : Keeps a
    (fun p e => match e with
      | .ok _ => p = .ready
      | .error f => p = .bare ∧ f = .configMissing a.name) .fresh
    (telling (fun b _ => .asks b.runner.config.isSome) (View.whole.work requireConfig)) := by
  refine Account.leads_step fun b tool => ?_
  have moves (b' : Bench) : Part.next .fresh ⟨.asks b.runner.config.isSome, b, b'⟩ =
      if b.runner.config.isSome then .ready else .bare := rfl
  cases configured : b.runner.config with
  | none =>
    refine ⟨_, b, outcome_requireConfig_none configured, .asks b, ?_, by rw [tool]⟩
    rw [moves, configured]
    rfl
  | some c =>
    refine ⟨_, b, outcome_requireConfig configured, .asks b, ?_⟩
    dsimp only
    rw [moves, configured]
    rfl

/-- A caller is let in unless a run goes on. -/
theorem tries_keeps : Keeps a
    (fun p e => ∃ free, e = .ok free ∧ p = if free then .inside else .refused) .ready
    (telling (fun b _ => if b.runner.running then .refused else .starts)
      (View.whole.work tryStart)) := by
  refine Account.leads_step fun b _ => ⟨_, _, outcome_tryStart b, ?_⟩
  dsimp only
  cases running : b.runner.running with
  | true =>
    simp only [if_true]
    exact ⟨.refused running, false, rfl, rfl⟩
  | false =>
    simp only [Bool.false_eq_true, if_false]
    exact ⟨.starts running, true, rfl, rfl⟩

/-- A run that was let in is over when its call is, however it went. -/
theorem entered_keeps (c : Config) (r : Request) {l : Listeners Bench} (hl : l.Within Minds) :
    Keeps a (fun p e => ∃ o, e = .ok o ∧ p = .past) .inside (do
      let outcome ← (runAccount c r l).attempt
      telling (fun _ _ => .finishes) (View.whole.work finish)
      return outcome) := by
  have ran := Account.leads_attempt (runAccount_keeps (a := a) c r hl)
  have finished : Keeps a (fun p e => ∃ u, e = .ok u ∧ p = .past) .inside
      (telling (fun _ _ => .finishes) (View.whole.work finish)) :=
    Account.leads_step fun b _ => ⟨_, b.closed, rfl, .finishes b, _, rfl, rfl⟩
  refine Account.leads_bind_ok ran ?_
  rintro p outcome rfl
  refine Account.leads_bind_ok finished ?_
  rintro p _ rfl
  exact ⟨outcome, rfl, rfl⟩

theorem busy_keeps : Keeps a (fun p e => ∃ o, e = .ok o ∧ p = .refused ∧ ∃ stamp,
      o = Analysis.failed stamp a.name "Analysis already running") .refused
    (telling (fun _ _ => .looks) (View.whole.work busy)) := by
  refine Account.leads_step fun b tool => ⟨_, b, rfl, .looks _ b, _, rfl, rfl, b.world.stamp, ?_⟩
  rw [← tool]

/-- Who asks to run a tool finds it configured or not, and is let in or not. -/
theorem startAccount_keeps (r : Request) {l : Listeners Bench} (hl : l.Within Minds) :
    Keeps a (fun p e => Ended a p ((e.bind id).map .analysis)) .fresh (startAccount r l) := by
  unfold startAccount
  refine Account.leads_bind asks_keeps ?_ ?_
  · rintro p c rfl
    refine Account.leads_bind_ok tries_keeps ?_
    rintro p free rfl
    cases free with
    | true =>
      refine (entered_keeps c r hl).mono ?_
      rintro p e ⟨o, -, rfl⟩
      exact ⟨by simp, by simp, by simp, by simp⟩
    | false =>
      refine Account.leads_bind_ok busy_keeps ?_
      rintro p answer ⟨rfl, stamp, rfl⟩
      exact ⟨by simp, by simp, fun _ => ⟨stamp, rfl⟩, by simp⟩
  · rintro p f ⟨rfl, rfl⟩
    exact ⟨by simp, fun _ => rfl, by simp, by simp⟩

/-- Those who use the tool start and finish nothing but their own runs. -/
def Use.Polite : Use → Prop
  | run _ l => l.Within Minds
  | stop => True
  | other w => Work.Within Leaves w

theorem Use.account_keeps {u : Use} (polite : u.Polite) : Keeps a (Ended a) .fresh u.account := by
  cases u with
  | run r l =>
    have started : Keeps a (fun p e => Ended a p (e.map .analysis)) .fresh
        (startAccount r l >>= Account.ofExcept) :=
      Account.leads_bind (startAccount_keeps r polite) (fun _ _ ended => ended) fun _ _ ended => ended
    exact Account.leads_map started fun _ _ ended => ended
  | stop =>
    have stopped : Keeps a (fun p e => ∃ stops, p = .asked stops ∧ e = .ok stops) .fresh
        (telling (fun b _ => .cancels b.runner.running) (View.whole.work Bench.cancel)) := by
      refine Account.leads_step fun b _ => ?_
      obtain ⟨b', outcome, cancels⟩ := outcome_cancel b
      exact ⟨_, b', outcome, .cancels (.inl rfl) cancels, _, rfl, rfl⟩
    refine Account.leads_map stopped ?_
    rintro p e ⟨stops, rfl, rfl⟩
    refine ⟨by simp, by simp, by simp, ?_⟩
    rintro _ ⟨⟩
    rfl
  | other w =>
    have aside : Keeps a (fun p _ => p = .fresh ∨ p = .aside) .fresh
        (telling (fun _ _ => .other) w) := by
      refine Account.leads_of (I := fun p => p = Part.fresh ∨ p = Part.aside) polite ?_ ?_ (.inl rfl)
      · rintro p b b' (rfl | rfl) - <;> exact .inr rfl
      · rintro p b b' (rfl | rfl) - leaves
        · exact .other (.inl rfl) leaves
        · exact .other (.inr (.inr rfl)) leaves
    refine Account.leads_map aside ?_
    rintro p e (rfl | rfl) <;> exact ⟨by simp, by simp, by simp, by simp⟩

end

end LintHub.Execution
