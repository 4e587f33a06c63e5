import LintHub.Proofs.Run.Calm
import LintHub.Tool.Execution

/-! # What a run can touch

A run of an external tool works on its bench and on nothing else, so that whatever these changes of
the bench keep is kept by every step of the run. Listeners have to keep it too.
-/

namespace LintHub

variable {σ α : Type} {R : σ → σ → Prop}

/-- A world without files and programs, in which nothing happens. -/
def World.bare (settings : Settings) : World :=
  { disk := .empty []
    settings
    stamp := ⟨"analysis", ⟨⟨2024, 1, 2⟩, 3, 4, 5, 0, 0⟩⟩
    programs := []
    clock := .zero
    live := false
    versionRun := .silent
    runs := []
    log := []
    calls := [] }

/-- Every step of those who listen stays within a relation. -/
structure Listeners.Within (R : σ → σ → Prop) (l : Listeners σ) : Prop where
  progress : ∀ f, l.progress = some f → ∀ p, Work.Within R (f p)
  output : ∀ f, l.output = some f → ∀ line, Work.Within R (f line)

theorem Listeners.nobody_within : Listeners.Within R .nobody := by
  constructor
  · intro f hf
    cases hf
  · intro f hf
    cases hf

theorem runProgram_within {v : View σ World} (hv : ∀ s w, R s (v.set s w)) (command : List String)
    (timeout : Int) : Work.Within R (runProgram v command timeout) := by
  unfold runProgram
  refine .bind (.work fun s => hv s _) fun w => ?_
  split
  · exact .work fun s => hv s _
  · refine .bind (.work fun s => hv s _) fun r => ?_
    dsimp only
    split
    · exact .bind .pause fun _ => .work fun s => hv s _
    · exact .work fun s => hv s _

namespace Execution

open Bench

/-! ## The stages of a run -/

section
variable {v : View σ Bench} (hv : ∀ s b, Moves (v.get s) b → R s (v.set s b))
include hv

theorem moves_within {m : Act Bench α} (hm : Act.Within Moves m) : Work.Within R (v.work m) :=
  .work fun s => hv s _ (hm _)

theorem rests_within {m : Act Bench α} (hm : Act.Within Rests m) : Work.Within R (v.work m) :=
  moves_within hv fun b => (hm b).moves

theorem emit_within {listener : Option (Progress → Work σ Unit)}
    (hl : ∀ f, listener = some f → ∀ p, Work.Within R (f p)) (p : Progress) :
    Work.Within R (emit v listener p) := by
  cases listener with
  | none => exact .pure _
  | some f =>
    refine .bind (.attempt (hl f rfl p)) fun e => ?_
    cases e with
    | ok _ => exact .pure _
    | error fault => exact rests_within hv fun b => rfl

theorem conclude_within {l : Listeners σ} (hl : l.Within R) (c : Config) (r : Request)
    (started : Binary64) (source : Path) (fileCount : Int) (done : Finished) :
    Work.Within R (conclude v c r l started source fileCount done) := by
  unfold conclude
  refine .bind (rests_within hv adapter_rests) fun a => ?_
  refine .bind (rests_within hv (Act.Within.attempt (judge_rests c r source done))) fun e => ?_
  cases e with
  | ok p =>
    exact .bind (emit_within hv hl.progress _) fun _ => rests_within hv (found_rests _ _ _ _)
  | error f =>
    dsimp only
    split
    · exact rests_within hv (failed_rests _ _)
    · exact .throw f

theorem launch_within {l : Listeners σ} (hl : l.Within R) (c : Config) (r : Request)
    (started : Binary64) (source : Path) (fileCount : Int) :
    Work.Within R (launch v c r l started source fileCount) := by
  have fails (message : String) : Work.Within R (v.work (failed started message)) :=
    rests_within hv (failed_rests started message)
  unfold launch
  refine .bind (rests_within hv adapter_rests) fun a => ?_
  refine .bind (moves_within hv (command_moves r)) fun command => ?_
  refine .bind (.attempt (runProgram_within (fun s w => hv s _ (world_rests _ w).moves) _ _))
    fun e => ?_
  cases e with
  | error f =>
    dsimp only
    split
    · exact fails _
    · split
      · exact fails _
      · exact .throw f
  | ok done =>
    have judged : Work.Within R (if Adapter.acceptsExit done.exit then
        conclude v c r l started source fileCount done
      else
        v.work (failed started
          s!"{a.name} exited with code {Text.intText done.exit}: {complaint done.stderr}")) := by
      split
      · exact conclude_within hv hl ..
      · exact fails _
    dsimp only
    split
    · exact judged
    · next f hf => exact .bind (.forM (hl.output f hf)) fun _ => judged

theorem run_within {l : Listeners σ} (hl : l.Within R) (c : Config) (r : Request) :
    Work.Within R (run v c r l) := by
  unfold run
  refine .bind (rests_within hv adapter_rests) fun a => ?_
  refine .bind (rests_within hv fun b => rfl) fun started => ?_
  refine .bind (moves_within hv fun b => (isAvailable_looks b).moves) fun found => ?_
  split
  · exact rests_within hv (failed_rests _ _)
  · have collects : Act.Within Rests (do
        let source ← (Path.ofJson (c.targetFor r).sourcePath : Except Fault Path)
        let disk := (← MonadState.get).world.disk
        let files ← (disk.sources source a.extensions : Except Fault (List Path))
        return (source, files) : Act Bench (Path × List Path)) := by
      refine Rests.bind (Rests.except _) fun source => Rests.bind Rests.get fun b => ?_
      exact Rests.bind (Rests.except _) fun files => Rests.pure _
    refine .bind (rests_within hv collects) fun p => ?_
    refine .bind (emit_within hv hl.progress _) fun _ => ?_
    refine .bind (rests_within hv fun b => rfl) fun stopped => ?_
    split
    · exact rests_within hv (failed_rests _ _)
    · exact launch_within hv hl ..

end

/-! ## Whole runs -/

section
variable {v : View σ Bench} (hv : ∀ s b, Sees (v.get s) b → R s (v.set s b))
include hv

theorem start_within {l : Listeners σ} (hl : l.Within R) (r : Request) :
    Work.Within R (start v r l) := by
  have moves : ∀ s b, Moves (v.get s) b → R s (v.set s b) := fun s b moves => hv s b moves.sees
  unfold start
  refine .bind (rests_within moves fun b => congrArg runner (requireConfig_state b)) fun c => ?_
  refine .bind (.work fun s => hv s _ ?_) fun free => ?_
  · rw [outcome_tryStart]
    split <;> exact .inl rfl
  split
  · refine .bind (.attempt (run_within moves hl c r)) fun outcome => ?_
    exact .bind (.work fun s => hv s _ (.inl rfl)) fun _ => .pure _
  · exact .bind (rests_within moves fun b => rfl) fun _ => .pure _

theorem execute_within {l : Listeners σ} (hl : l.Within R) (r : Request) :
    Work.Within R (execute v r l) :=
  .bind (start_within hv hl r) fun e => .ofExcept e

end

end Execution

end LintHub
