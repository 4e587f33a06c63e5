import LintHub.Proofs.Batch.Steady

/-! # What a batch can touch

A batch works on its hub and on nothing else, so that whatever such changes of the hub keep is kept
by every step of the batch. Those who listen and those who wait for its end have to keep it too.
-/

namespace LintHub.Hub

variable {σ α : Type} {R : σ → σ → Prop} {v : View σ Hub}

/-- Every step of those who listen to a batch stays within a relation. -/
def HearsWithin (R : σ → σ → Prop) (listener : Option (BatchListener σ)) : Prop :=
  ∀ f, listener = some f → ∀ name p, Work.Within R (f name p)

theorem nobody_hears : HearsWithin R (none : Option (BatchListener σ)) := by
  intro f hf
  cases hf

/-- Telling of the end of a batch. -/
theorem completion_bounded {completion : Option (List Analysis → Work σ Unit)}
    (hc : ∀ f, completion = some f → ∀ as, Work.Within R (f as)) (as : List Analysis) :
    Work.Within R (match completion with
      | none => pure ()
      | some f => f as) := by
  cases completion with
  | none => exact .pure _
  | some f => exact hc f rfl as

/-! ## Runs and turns -/

section
variable (hv : ∀ s h, Steady (v.get s) h → Sees (v.get s) h → R s (v.set s h))
include hv

theorem work_bounded {m : Act Hub α} (steady : Act.Within Steady m) (sees : Act.Within Sees m) :
    Work.Within R (v.work m) :=
  .work fun s => hv s _ (steady _) (sees _)

/-- Work that looks for no program. -/
theorem rests_bounded {m : Act Hub α} (steady : Act.Within Steady m) (rests : Act.Within Rests m) :
    Work.Within R (v.work m) :=
  work_bounded hv steady fun h => (rests h).sees

theorem still_bounded {m : Act Hub α} (hm : Act.Still m) : Work.Within R (v.work m) :=
  rests_bounded hv (still_steady hm) (still_rests hm)

theorem say_bounded (level : LogLevel) (tool message : String) :
    Work.Within R (v.work (say level tool message)) :=
  rests_bounded hv (fun h => (noted_apart 0 h _ _ _).steady) (say_rests _ _ _)

theorem bench_bounded (i : ToolId) (spare : Runner) (s : σ) (b : Bench)
    (sees : Bench.Sees ((v.trans (bench i spare)).get s) b) :
    R s ((v.trans (bench i spare)).set s b) :=
  hv s _ (setBench_apart i _ b).steady (setBench_sees sees)

theorem play_bounded (i : ToolId) (t : ScriptedTool) (r : Request) :
    Work.Within R (play v i t r) := by
  unfold play
  refine .bind (rests_bounded hv (remember_steady i r) (remember_rests i r)) fun _ => ?_
  have asks : Work.Within R (discard (v.work cancel) : Work σ Unit) :=
    .bind (rests_bounded hv (fun h => (cancel_kept h).steady) cancel_rests) fun _ => .pure _
  have ends : Work.Within R (v.work (do
      (t.outcome (← MonadState.get).world.stamp : Except Fault Analysis)) : Work σ Analysis) :=
    still_bounded hv fun h => rfl
  cases t.script.waits <;> cases t.script.cancels
  · exact ends
  · exact .bind asks fun _ => ends
  · exact .bind .pause fun _ => ends
  · exact .bind .pause fun _ => .bind asks fun _ => ends

theorem execute_bounded (i : ToolId) (r : Request) : Work.Within R (execute v i r) := by
  refine .bind (still_bounded hv (toolAt_still i)) fun t => ?_
  cases t with
  | scripted t => exact play_bounded hv i t r
  | external runner =>
    exact Execution.execute_within (bench_bounded hv i runner) Listeners.nobody_within r

theorem playAloud_bounded (i : ToolId) (t : ScriptedTool) (r : Request)
    {listener : Progress → Work σ Unit} (hl : ∀ p, Work.Within R (listener p)) :
    Work.Within R (playAloud v i t r listener) := by
  unfold playAloud
  refine .bind (hl _) fun _ => .bind (.attempt (play_bounded hv i t r)) fun e => ?_
  cases e with
  | error f => exact .pure _
  | ok a => exact .bind (hl _) fun _ => .pure _

theorem start_bounded (i : ToolId) (r : Request) {l : Listeners σ} (hl : l.Within R) :
    Work.Within R (start v i r l) := by
  refine .bind (still_bounded hv (toolAt_still i)) fun t => ?_
  cases t with
  | external runner => exact Execution.start_within (bench_bounded hv i runner) hl r
  | scripted t =>
    refine playAloud_bounded hv i t r fun p => ?_
    cases hp : l.progress with
    | none => exact .pure _
    | some f => exact hl.progress f hp p

section
variable {listener : Option (BatchListener σ)} (hl : HearsWithin R listener)
include hl

theorem checkAndRun_bounded (name : String) (i : ToolId) (r : Request) :
    Work.Within R (checkAndRun v name i r listener) := by
  have checks : Act.Still (validateForAt i r) := outcome_validateForAt_state i r
  unfold checkAndRun
  refine .bind (still_bounded hv checks) fun checked => ?_
  refine .bind (.forM fun w => say_bounded hv _ _ _) fun _ => ?_
  split
  · exact still_bounded hv fun h => rfl
  · refine .bind (say_bounded hv _ _ _) fun _ => ?_
    cases listener with
    | none => exact execute_bounded hv i r
    | some f =>
      refine .bind (start_bounded hv i r ⟨fun g hg p => ?_, fun g hg => (nomatch hg)⟩) fun e =>
        .ofExcept e
      cases hg
      exact hl f rfl name p

theorem runTool_bounded (name : String) (i : ToolId) (r : Request) :
    Work.Within R (runTool v name i r listener) := by
  unfold runTool
  refine .bind (.attempt (checkAndRun_bounded hv hl name i r)) fun e => ?_
  cases e with
  | ok a => exact .pure _
  | error f => exact rests_bounded hv (fun h => (world_apart i h _).steady) fun h => world_rests h _

theorem turn_bounded (r : Request) (name : String) :
    Work.Within R (turn v r listener name) := by
  unfold turn
  refine .bind (work_bounded hv (readyTool_steady name) (readyTool_sees name)) fun i => ?_
  cases i with
  | none => exact .pure _
  | some i =>
    exact .bind (.ofExcept _) fun own => .bind (runTool_bounded hv hl name i own) fun a => .pure _

theorem runNames_bounded (r : Request) (names : List String) :
    Work.Within R (runNames v r listener names) := by
  induction names with
  | nil => exact .pure _
  | cons name names ih =>
    rw [runNames_cons]
    have looks := rests_bounded hv (stopsBefore_steady name) (stopsBefore_rests name)
    refine .bind looks fun stops => ?_
    split
    · exact .pure _
    · refine .bind (turn_bounded hv hl r name) fun a => ?_
      cases a with
      | none => exact ih
      | some a => exact .bind ih fun as => .pure _

end

end

/-! ## Batches and single runs -/

section
variable (hv : ∀ s h, Sees (v.get s) h → R s (v.set s h))
include hv

theorem rests_within {m : Act Hub α} (rests : Act.Within Rests m) : Work.Within R (v.work m) :=
  .work fun s => hv s _ (rests _).sees

theorem runSingle_bounded (name : String) (r : Request) : Work.Within R (runSingle v name r) := by
  unfold runSingle
  refine .bind (rests_within hv (still_rests (require_still name))) fun i => ?_
  refine .bind (.work fun s => hv s _ (isAvailable_looks i _).toSees) fun found => ?_
  split
  · exact .throw _
  · refine .bind (rests_within hv (setRunning_rests true)) fun _ => ?_
    refine .bind (rests_within hv clearCancel_rests) fun _ => ?_
    refine .bind (rests_within hv (say_rests _ _ _)) fun _ => ?_
    refine .bind (.attempt (execute_bounded (fun s h _ => hv s h) i r)) fun result => ?_
    exact .bind (rests_within hv (setRunning_rests false)) fun _ => .ofExcept _

section
variable {listener : Option (BatchListener σ)} (hl : HearsWithin R listener)
include hl

theorem executeBatch_bounded (names : List String) (r : Request) :
    Work.Within R (executeBatch v names r listener) := by
  unfold executeBatch
  refine .bind (rests_within hv (setRunning_rests true)) fun _ => ?_
  refine .bind (.attempt (runNames_bounded (fun s h _ => hv s h) hl r names)) fun result => ?_
  exact .bind (rests_within hv (setRunning_rests false)) fun _ => .ofExcept _

theorem task_bounded {completion : Option (List Analysis → Work σ Unit)}
    (hc : ∀ f, completion = some f → ∀ as, Work.Within R (f as)) (names : List String) (r : Request) :
    Work.Within R (task v names r listener completion) := by
  have tells := completion_bounded hc
  have whole : Work.Within R (do
      v.work (checkNames names)
      executeBatch v names r listener : Work σ (List Analysis)) :=
    .bind (rests_within hv (still_rests (checkNames_still names))) fun _ =>
      executeBatch_bounded hv hl names r
  unfold task
  refine .bind (.attempt whole) fun e => ?_
  cases e with
  | ok as => exact .bind (tells as) fun _ => .pure _
  | error f =>
    exact .bind (rests_within hv (inWorld_rests _)) fun _ => .bind (tells []) fun _ => .throw f

end

theorem runBatch_bounded (names : List String) (r : Request) :
    Work.Within R (runBatch v names r) := by
  refine .bind (rests_within hv (still_rests (checkNames_still names))) fun _ => ?_
  refine .bind (rests_within hv clearCancel_rests) fun _ => ?_
  exact executeBatch_bounded hv nobody_hears names r

end

end LintHub.Hub
