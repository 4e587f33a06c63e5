import LintHub.Proofs.Run.Stages
import LintHub.Proofs.Work.Steps

/-! # What a run leaves alone

A step of a run looks for the program first, if it does so at all, and then changes the world and
nothing else. Whether a run goes on and whether it was asked to stop is settled where runs start,
finish and are asked to stop; every other step leaves both alone.
-/

namespace LintHub

variable {α : Type}

/-! ## What is known of a program -/

/-- What a tool knows of its program. -/
inductive Probe where
  /-- A tool that runs no program: whether it is available is laid down. -/
  | laid (available : Bool)
  /-- The program of an analyser, and where it was when it was first looked for. -/
  | program (a : Adapter) (path : Option String)
  deriving DecidableEq, Repr

namespace Probe

/-- Where the program is for a tool that knows this much. -/
def path (w : World) (a : Adapter) : Option String → Except Fault String
  | some path => .ok path
  | none => Bench.locate w a

/-- What is known after the program was looked for. -/
def looked (w : World) : Probe → Probe
  | laid available => laid available
  | program a known => program a (path w a known).toOption

end Probe

def Runner.probe (r : Runner) : Probe :=
  .program r.adapter r.path

namespace Bench

/-! ## Changes of a bench -/

/-- The tool is the same, counts as running and as asked to stop as before, and has not lost its
configuration. -/
structure Leaves (b b' : Bench) : Prop where
  adapter : b'.runner.adapter = b.runner.adapter
  configured : b.runner.config.isSome = true → b'.runner.config.isSome = true
  running : b'.runner.running = b.runner.running
  cancelled : b'.runner.cancelled = b.runner.cancelled

/-- Only the world has changed. -/
def Rests (b b' : Bench) : Prop :=
  b'.runner = b.runner

/-- At most the program has been looked for. -/
def Looks (b b' : Bench) : Prop :=
  b' = b ∨ b' = b.looked

/-- At most the program has been looked for before the world changed. -/
def Moves (b b' : Bench) : Prop :=
  b'.runner = b.runner ∨ b'.runner = b.looked.runner

/-- Whatever else has changed, the tool knows of its program what it knew before, or what it learnt
from looking for it in the world that there was. -/
def Sees (b b' : Bench) : Prop :=
  b'.runner.probe = b.runner.probe ∨ b'.runner.probe = b.runner.probe.looked b.world

theorem probe_looked (b : Bench) : b.looked.runner.probe = b.runner.probe.looked b.world := by
  unfold looked seen Runner.probe Probe.looked Probe.path
  cases b.runner.path <;> rfl

theorem looked_looked (b : Bench) : b.looked.looked = b.looked := by
  rw [looked, seen_looked]
  rfl

theorem Looks.trans {b₁ b₂ b₃ : Bench} (h : Looks b₁ b₂) (h' : Looks b₂ b₃) : Looks b₁ b₃ := by
  rcases h with rfl | rfl
  · exact h'
  · rw [Looks, looked_looked, or_self] at h'
    exact .inr h'

theorem world_rests (b : Bench) (w : World) : Rests b { b with world := w } :=
  rfl

theorem Rests.moves {b b' : Bench} (h : Rests b b') : Moves b b' :=
  .inl h

theorem Looks.moves {b b' : Bench} (h : Looks b b') : Moves b b' :=
  h.imp (congrArg runner) (congrArg runner)

theorem Moves.leaves {b b' : Bench} (h : Moves b b') : Leaves b b' := by
  rcases h with same | same
  · exact ⟨by rw [same], by rw [same]; exact id, by rw [same], by rw [same]⟩
  · exact ⟨by rw [same]; rfl, by rw [same]; exact id, by rw [same]; rfl, by rw [same]; rfl⟩

theorem Moves.sees {b b' : Bench} (h : Moves b b') : Sees b b' := by
  refine h.imp (congrArg Runner.probe) fun same => ?_
  rw [same, probe_looked]

/-! ## Acts that only change the world -/

theorem Rests.bind {β : Type} {m : Act Bench α} {k : α → Act Bench β} (hm : Act.Within Rests m)
    (hk : ∀ a, Act.Within Rests (k a)) : Act.Within Rests (m >>= k) :=
  Act.Within.bind hm hk fun _ _ _ h h' => h'.trans h

theorem Rests.pure (a : α) : Act.Within Rests (Pure.pure a : Act Bench α) :=
  fun _ => rfl

theorem Rests.get : Act.Within Rests (MonadState.get : Act Bench Bench) :=
  fun _ => rfl

theorem Rests.except (e : Except Fault α) : Act.Within Rests (liftM e : Act Bench α) :=
  fun _ => rfl

theorem adapter_rests : Act.Within Rests adapter :=
  fun _ => rfl

theorem inWorld_rests (m : Act World α) : Act.Within Rests (inWorld m) :=
  fun _ => rfl

theorem say_rests (level : LogLevel) (message : String) : Act.Within Rests (say level message) :=
  fun _ => rfl

theorem since_rests (started : Binary64) : Act.Within Rests (since started) := by
  intro b
  obtain ⟨e, asked⟩ := outcome_since_state started b
  rw [asked]
  rfl

theorem failed_rests (started : Binary64) (message : String) :
    Act.Within Rests (failed started message) := by
  refine Rests.bind (say_rests _ _) fun _ => Rests.bind (since_rests started) fun span => ?_
  exact fun b => rfl

/-- The issues are told of before the analysis. -/
theorem found_rests (started : Binary64) (message : String) (issues : List Issue) (files : Int) :
    Act.Within Rests (do
      say .info message
      succeeded started issues files) :=
  Rests.bind (say_rests _ _) fun _ => Rests.bind (since_rests started) fun _ _ => rfl

theorem outcome_requireConfig_none {b : Bench} (bare : b.runner.config = none) :
    requireConfig.outcome b = (.error (.configMissing b.runner.adapter.name), b) := by
  unfold requireConfig
  rw [Act.outcome_bind_ok (Act.outcome_get b)]
  dsimp only
  rw [bare]
  rfl

theorem requireConfig_state (b : Bench) : (requireConfig.outcome b).2 = b := by
  cases configured : b.runner.config with
  | none => rw [outcome_requireConfig_none configured]
  | some c => rw [outcome_requireConfig configured]

theorem reportText_rests (c : Config) (r : Request) (printed : String) :
    Act.Within Rests (reportText c r printed) := by
  refine Rests.bind adapter_rests fun a => ?_
  cases a with
  | ruff =>
    dsimp only
    split
    · refine Rests.bind (Rests.except _) fun p => Rests.bind Rests.get fun b => ?_
      refine Rests.bind (Rests.except _) fun disk => ?_
      exact Rests.bind (fun b => rfl) fun _ => Rests.pure _
    · exact Rests.pure _
  | bandit =>
    dsimp only
    split
    · exact Rests.pure _
    · refine Rests.bind (Rests.except _) fun p => Rests.bind Rests.get fun b => ?_
      refine Rests.bind (Rests.except _) fun there => ?_
      split
      · exact Rests.except _
      · exact Rests.pure _

theorem readReport_rests (root : Option Path) (text : String) :
    Act.Within Rests (readReport root text) := by
  refine Rests.bind adapter_rests fun a => ?_
  cases a with
  | ruff =>
    refine Rests.bind Rests.get fun b => ?_
    exact Rests.bind (Rests.except _) fun issues => Rests.pure _
  | bandit => exact inWorld_rests _

theorem judge_rests (c : Config) (r : Request) (source : Path) (done : Finished) :
    Act.Within Rests (judge c r source done) :=
  Rests.bind (reportText_rests c r done.stdout) fun _ => readReport_rests _ _

/-! ## Acts that look for the program -/

theorem Looks.bind {β : Type} {m : Act Bench α} {k : α → Act Bench β} (hm : Act.Within Looks m)
    (hk : ∀ a, Act.Within Looks (k a)) : Act.Within Looks (m >>= k) :=
  Act.Within.bind hm hk fun _ _ _ => Looks.trans

theorem Looks.pure (a : α) : Act.Within Looks (Pure.pure a : Act Bench α) :=
  fun _ => .inl rfl

theorem Looks.except (e : Except Fault α) : Act.Within Looks (liftM e : Act Bench α) :=
  fun _ => .inl rfl

theorem executablePath_looks : Act.Within Looks executablePath := fun b => by
  rw [outcome_executablePath_eq]
  exact .inr rfl

theorem isAvailable_looks : Act.Within Looks isAvailable := fun b => by
  rw [outcome_isAvailable_eq]
  exact .inr rfl

theorem commandLine_looks (r : Request) : Act.Within Looks (commandLine r) := by
  refine Looks.bind (fun b => .inl (requireConfig_state b)) fun c => ?_
  refine Looks.bind (fun b => .inl rfl) fun a => Looks.bind executablePath_looks fun path => ?_
  refine Looks.bind (fun b => .inl rfl) fun b => Looks.bind (Looks.except _) fun own => ?_
  refine Looks.bind (Looks.except _) fun configured => ?_
  exact Looks.bind (Looks.except _) fun requested => Looks.pure _

/-- What is done after the program was looked for may change the world. -/
theorem Moves.after {β : Type} {m : Act Bench α} {k : α → Act Bench β} (hm : Act.Within Moves m)
    (hk : ∀ a, Act.Within Rests (k a)) : Act.Within Moves (m >>= k) := by
  intro b
  have moves := hm b
  rw [Act.outcome_bind]
  rcases first : m.outcome b with ⟨f | a, b₁⟩ <;> rw [first] at moves
  · exact moves
  · have rests : ((k a).outcome b₁).2.runner = b₁.runner := hk a b₁
    exact moves.imp rests.trans rests.trans

/-- The command is put together and told of. -/
theorem command_moves (r : Request) : Act.Within Moves (do
    let texts ← (textsFrom 0 (← commandLine r) : Except Fault (List String))
    say .info ("Running " ++ String.intercalate " " texts)
    return texts) := by
  refine Moves.after (fun b => (commandLine_looks r b).moves) fun args => ?_
  refine Rests.bind (Rests.except _) fun texts => Rests.bind (say_rests _ _) fun _ => Rests.pure _

/-- The program is looked for before it is asked for its version. -/
theorem version_sees : Act.Within Sees version := by
  have probes : Act.Within Moves probeVersion := by
    refine Moves.after (fun b => (executablePath_looks b).moves) fun path => ?_
    split
    · exact Rests.pure _
    · refine Rests.bind (Act.Within.attempt (inWorld_rests _)) fun e => ?_
      cases e with
      | ok r => exact Rests.pure _
      | error f =>
        dsimp only
        split
        · exact Rests.bind (say_rests _ _) fun _ => Rests.pure _
        · exact fun b => rfl
  intro b
  unfold version
  rw [Act.outcome_bind_ok (Act.outcome_get b)]
  cases b.runner.version with
  | some v => exact .inl rfl
  | none =>
    have moves := probes b
    dsimp only
    rw [Act.outcome_bind]
    rcases first : probeVersion.outcome b with ⟨f | v, b₁⟩ <;> rw [first] at moves
    · exact moves.sees
    · exact moves.sees

end Bench

end LintHub
