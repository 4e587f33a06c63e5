import LintHub.Proofs.Batch.Steady
import LintHub.Proofs.Run.Listening

/-! # Batches in the background and batches that are waited for

Where nothing else goes on, a batch in the background comes to what a batch comes to that is waited
for. The way there is another one: names are checked in the background, runs are started and their
outcomes asked for, and who listens is told of everything.
-/

namespace LintHub.Hub

open Execution (start_agrees)

variable {σ : Type}

section
variable {v : View σ Hub} (hv : v.Over v)
include hv

theorem play_agrees (i : ToolId) (t : ScriptedTool) (r : Request) :
    Work.Agrees v (play v i t r) (play v i t r) := by
  unfold play
  refine .bind (.work hv _) fun _ => ?_
  have asks : Work.Agrees v (discard (v.work cancel)) (discard (v.work cancel)) :=
    .bind (.work hv _) fun _ => .pure _
  cases t.script.waits <;> cases t.script.cancels
  · exact .work hv _
  · exact .bind asks fun _ => .work hv _
  · exact .bind .pause fun _ => .work hv _
  · exact .bind .pause fun _ => .bind asks fun _ => .work hv _

/-- A scripted tool that tells of its progress comes to the same. -/
theorem playAloud_agrees (i : ToolId) (t : ScriptedTool) (r : Request)
    {listener : Progress → Work σ Unit} (quiet : ∀ p, Work.Agrees v (listener p) (pure ())) :
    Work.Agrees v (playAloud v i t r listener >>= Work.ofExcept) (play v i t r) := by
  have whole : Work.Agrees v (playAloud v i t r listener >>= Work.ofExcept)
      ((play v i t r).attempt >>= Work.ofExcept) := by
    unfold playAloud
    simp only [bind_assoc]
    refine .skip (quiet _) (.bind (.attempt (play_agrees hv i t r)) fun e => ?_)
    cases e with
    | error f =>
      rw [pure_bind]
      exact .ofExcept _
    | ok a =>
      simp only [bind_assoc, pure_bind]
      exact .skip (quiet _) (.ofExcept _)
  rw [Work.attempt_bind_ofExcept] at whole
  exact whole

/-- A run that is started and asked for its outcome comes to what a run comes to that is waited for. -/
theorem start_agrees_execute (i : ToolId) (r : Request) {l : Listeners σ} (hl : l.Quiet v) :
    Work.Agrees v (start v i r l >>= Work.ofExcept) (execute v i r) := by
  unfold start execute
  rw [bind_assoc]
  refine .bind (.work hv _) fun t => ?_
  cases t with
  | scripted t =>
    refine playAloud_agrees hv i t r fun p => ?_
    cases listens : l.progress with
    | none => exact .pure _
    | some f => exact hl.progress f listens p
  | external runner =>
    exact .bind (start_agrees (hv.trans _) hl r) fun e => .ofExcept e

theorem execute_agrees (i : ToolId) (r : Request) :
    Work.Agrees v (execute v i r) (execute v i r) := by
  unfold execute
  refine .bind (.work hv _) fun t => ?_
  cases t with
  | scripted t => exact play_agrees hv i t r
  | external runner =>
    exact .bind (start_agrees (hv.trans _) .nobody r) fun e => .ofExcept e

theorem checkAndRun_agrees (name : String) (i : ToolId) (r : Request)
    {listener : Option (BatchListener σ)}
    (hl : ∀ f, listener = some f → ∀ name p, Work.Agrees v (f name p) (pure ())) :
    Work.Agrees v (checkAndRun v name i r listener) (checkAndRun v name i r none) := by
  unfold checkAndRun
  refine .bind (.work hv _) fun checked => .bind (.forM fun w => .work hv _) fun _ => ?_
  split
  · exact .work hv _
  · refine .bind (.work hv _) fun _ => ?_
    cases listener with
    | none => exact execute_agrees hv i r
    | some f =>
      refine start_agrees_execute hv i r ⟨fun g hg p => ?_, fun g hg => (nomatch hg)⟩
      cases hg
      exact hl f rfl name p

theorem runTool_agrees (name : String) (i : ToolId) (r : Request)
    {listener : Option (BatchListener σ)}
    (hl : ∀ f, listener = some f → ∀ name p, Work.Agrees v (f name p) (pure ())) :
    Work.Agrees v (runTool v name i r listener) (runTool v name i r none) := by
  unfold runTool
  refine .bind (.attempt (checkAndRun_agrees hv name i r hl)) fun e => ?_
  cases e with
  | ok a => exact .pure _
  | error f => exact .work hv _

/-- By induction on the names: in every turn who listens changes nothing. -/
theorem runNames_agrees (r : Request) {listener : Option (BatchListener σ)}
    (hl : ∀ f, listener = some f → ∀ name p, Work.Agrees v (f name p) (pure ()))
    (names : List String) :
    Work.Agrees v (runNames v r listener names) (runNames v r none names) := by
  induction names with
  | nil => exact .pure _
  | cons name names ih =>
    unfold runNames
    refine .bind (.work hv _) fun stops => ?_
    cases stops with
    | true => exact .pure _
    | false =>
      refine .bind (.work hv _) fun i => ?_
      cases i with
      | none => exact ih
      | some i =>
        refine .bind (.ofExcept _) fun own => ?_
        exact .bind (runTool_agrees hv name i own hl) fun a => .bind ih fun as => .pure _

theorem executeBatch_agrees (names : List String) (r : Request) {listener : Option (BatchListener σ)}
    (hl : ∀ f, listener = some f → ∀ name p, Work.Agrees v (f name p) (pure ())) :
    Work.Agrees v (executeBatch v names r listener) (executeBatch v names r none) := by
  unfold executeBatch
  refine .bind (.work hv _) fun _ => .bind (.attempt (runNames_agrees hv r hl names)) fun e => ?_
  exact .bind (.work hv _) fun _ => .ofExcept e

end

/-- Names are good or not whether or not there was a cancel, and checking them changes nothing. -/
theorem checkNames_either (names : List String) (h : Hub) :
    ∃ e, (checkNames names).outcome h = (e, h) ∧
      (checkNames names).outcome { h with cancelled := false } = (e, { h with cancelled := false }) := by
  unfold checkNames
  split
  · exact ⟨_, rfl, rfl⟩
  · rw [Act.outcome_bind_ok (Act.outcome_get _), Act.outcome_bind_ok (Act.outcome_get _)]
    have same : (names.find? fun name => (({ h with cancelled := false } : Hub).idOf? name).isNone) =
        names.find? fun name => (h.idOf? name).isNone := rfl
    rw [same]
    cases names.find? fun name => (h.idOf? name).isNone with
    | none => exact ⟨_, rfl, rfl⟩
    | some name => exact ⟨_, rfl, rfl⟩

/-- A batch that is waited for comes to the same wherever its hub is the same. -/
theorem runBatch_agrees {v : View σ Hub} (hv : v.Over v) (names : List String) (r : Request) :
    Work.Agrees v (runBatch v names r) (runBatch v names r) :=
  .bind (.work hv _) fun _ => .bind (.work hv _) fun _ =>
    executeBatch_agrees hv names r fun _ none => nomatch none

/-- Hands a batch over to be run in the background and waits for it. -/
def background (v : View σ Hub) (names : List String) (r : Request)
    (listener : Option (BatchListener σ)) (completion : Option (List Analysis → Work σ Unit)) :
    Work σ (List Analysis) := do
  v.work submit
  task v names r listener completion

section
variable {v : View σ Hub} {listener : Option (BatchListener σ)}
variable {completion : Option (List Analysis → Work σ Unit)}

/-- Who waits for the end of a batch is told of it and does not change what the batch came to. -/
theorem outcome_task (hc : ∀ f, completion = some f → ∀ as, Work.Agrees v (f as) (pure ()))
    {names : List String} {r : Request} {s s' : σ} {e : Except Fault (List Analysis)}
    (body : (do
      v.work (checkNames names)
      executeBatch v names r listener : Work σ (List Analysis)).outcome s = (e, s')) :
    ((task v names r listener completion).outcome s).1 = e ∧
      ∀ as, e = .ok as → v.get ((task v names r listener completion).outcome s).2 = v.get s' := by
  unfold task
  rw [Work.outcome_bind_ok (Work.outcome_attempt _ s), body]
  cases completion with
  | none =>
    cases e with
    | ok as => exact ⟨rfl, fun _ _ => rfl⟩
    | error f => exact ⟨rfl, fun as bad => nomatch bad⟩
  | some f =>
    cases e with
    | ok as =>
      obtain ⟨answer, left⟩ := hc f rfl as s' s' rfl
      have told : (f as).outcome s' = (.ok (), ((f as).outcome s').2) := Prod.ext answer rfl
      dsimp only
      rw [Work.outcome_bind_ok told]
      exact ⟨rfl, fun _ _ => left⟩
    | error fault =>
      obtain ⟨t, reported⟩ : ∃ t, (v.work (inWorld (report ⟨.error, .orchestrator,
          "Batch analysis failed", none, none, some fault⟩))).outcome s' = (.ok (), t) := ⟨_, rfl⟩
      have told : (f []).outcome t = (.ok (), ((f []).outcome t).2) :=
        Prod.ext (hc f rfl [] t t rfl).1 rfl
      dsimp only
      rw [Work.outcome_bind_ok reported, Work.outcome_bind_ok told]
      exact ⟨rfl, fun as bad => nomatch bad⟩

theorem outcome_background {names : List String} {r : Request} {s : σ}
    (workers : 0 < (v.get s).workers) : (background v names r listener completion).outcome s =
      (task v names r listener completion).outcome (v.set s { v.get s with cancelled := false }) := by
  have submitted : (v.work submit).outcome s =
      (.ok (), v.set s { v.get s with cancelled := false }) := by
    rw [Work.outcome_work, outcome_submit, if_pos workers]
  unfold background
  rw [Work.outcome_bind_ok submitted]

/-- The names and the turns of a batch come to the same whether a cancel is forgotten before the names
are checked or after, and leave the same world. -/
theorem body_alike (get_set : ∀ s h, v.get (v.set s h) = h)
    (hl : ∀ f, listener = some f → ∀ name p, Work.Agrees v (f name p) (pure ())) (names : List String)
    (r : Request) (s : σ) :
    ∃ e s', (do
        v.work (checkNames names)
        executeBatch v names r listener : Work σ (List Analysis)).outcome
          (v.set s { v.get s with cancelled := false }) = (e, s') ∧
      e = ((runBatch v names r).outcome s).1 ∧
      (v.get s').world = (v.get ((runBatch v names r).outcome s).2).world ∧
      ∀ as, e = .ok as → v.get s' = v.get ((runBatch v names r).outcome s).2 := by
  obtain ⟨e, waiting, behind⟩ := checkNames_either names (v.get s)
  have checked : (v.work (checkNames names)).outcome s = (e, v.set s (v.get s)) := by
    rw [Work.outcome_work, waiting]
  have checkedBehind : (v.work (checkNames names)).outcome (v.set s { v.get s with cancelled := false }) =
      (e, v.set (v.set s { v.get s with cancelled := false }) { v.get s with cancelled := false }) := by
    rw [Work.outcome_work, get_set, behind]
  unfold runBatch
  cases e with
  | error f =>
    rw [Work.outcome_bind_error checked]
    refine ⟨_, _, Work.outcome_bind_error checkedBehind, rfl, ?_, fun as bad => nomatch bad⟩
    rw [get_set, get_set]
  | ok u =>
    have ready : (v.work clearCancel).outcome (v.set s (v.get s)) =
        (.ok (), v.set (v.set s (v.get s)) { v.get s with cancelled := false }) := by
      rw [Work.outcome_work, get_set]
      rfl
    rw [Work.outcome_bind_ok checked, Work.outcome_bind_ok ready]
    have agree := executeBatch_agrees (.refl get_set) names r hl
      (v.set (v.set s { v.get s with cancelled := false }) { v.get s with cancelled := false })
      (v.set (v.set s (v.get s)) { v.get s with cancelled := false }) (by rw [get_set, get_set])
    exact ⟨_, _, Work.outcome_bind_ok checkedBehind, agree.1, congrArg Hub.world agree.2,
      fun _ _ => agree.2⟩

theorem body_agrees (get_set : ∀ s h, v.get (v.set s h) = h)
    (hl : ∀ f, listener = some f → ∀ name p, Work.Agrees v (f name p) (pure ())) (names : List String)
    (r : Request) (s : σ) :
    ∃ e s', (do
        v.work (checkNames names)
        executeBatch v names r listener : Work σ (List Analysis)).outcome
          (v.set s { v.get s with cancelled := false }) = (e, s') ∧
      e = ((runBatch v names r).outcome s).1 ∧
      ∀ as, e = .ok as → v.get s' = v.get ((runBatch v names r).outcome s).2 := by
  obtain ⟨e, s', body, same, -, left⟩ := body_alike get_set hl names r s
  exact ⟨e, s', body, same, left⟩

/-- A batch in the background comes to the analyses or the fault of a batch that is waited for, and
leaves the same hub when it comes to analyses. -/
theorem background_agrees (get_set : ∀ s h, v.get (v.set s h) = h)
    (hl : ∀ f, listener = some f → ∀ name p, Work.Agrees v (f name p) (pure ()))
    (hc : ∀ f, completion = some f → ∀ as, Work.Agrees v (f as) (pure ())) (names : List String)
    (r : Request) {s : σ} (workers : 0 < (v.get s).workers) :
    ((background v names r listener completion).outcome s).1 = ((runBatch v names r).outcome s).1 ∧
      ∀ as, ((runBatch v names r).outcome s).1 = .ok as →
        v.get ((background v names r listener completion).outcome s).2 =
          v.get ((runBatch v names r).outcome s).2 := by
  obtain ⟨e, s', body, same, left⟩ := body_agrees get_set hl names r s
  obtain ⟨answer, kept⟩ := outcome_task hc body
  rw [outcome_background workers]
  refine ⟨answer.trans same, fun as came => ?_⟩
  have ended := same.trans came
  exact (kept as ended).trans (left as ended)

end

/-- A hub, and what those who listen have heard of it. -/
def overheard : View (Hub × List String) Hub :=
  ⟨fun s => s.1, fun s h => (h, s.2)⟩

/-- Notes something that was heard. -/
def noteDown (line : String) : Work (Hub × List String) Unit :=
  View.whole.work (modify fun s => (s.1, s.2 ++ [line]))

theorem noteDown_agrees (line : String) : Work.Agrees overheard (noteDown line) (pure ()) :=
  fun _ _ same => ⟨rfl, same⟩

theorem background_agrees_alpha :
    ((background overheard ["alpha"] (reportTo "") (some fun name p => noteDown (name ++ p.status))
        (some fun _ => noteDown "done")).outcome
          (holding (.bare .default) [quietTool "alpha"], [])).1 =
      ((runBatch overheard ["alpha"] (reportTo "")).outcome
        (holding (.bare .default) [quietTool "alpha"], [])).1 := by
  refine (background_agrees (fun _ _ => rfl) ?_ ?_ ["alpha"] (reportTo "") (by decide)).1
  · rintro f ⟨⟩ name p
    exact noteDown_agrees _
  · rintro f ⟨⟩ as
    exact noteDown_agrees _

def withoutWorkers : Hub :=
  holding (.bare { Settings.default with asyncWorkers := 0 }) [quietTool "alpha"]

/-- Without workers nothing is taken on, and batches that are waited for need none. -/
theorem withoutWorkers_differs :
    ((background View.whole ["alpha"] (reportTo "") none none).outcome withoutWorkers).1 ≠
      ((runBatch View.whole ["alpha"] (reportTo "")).outcome withoutWorkers).1 := by
  intro same
  have refused : ((background View.whole ["alpha"] (reportTo "") none none).outcome withoutWorkers).1 =
      .error .noWorkers := rfl
  have ran : ((runBatch View.whole ["alpha"] (reportTo "")).outcome withoutWorkers).1.isOk = true := by
    decide +kernel
  rw [← same, refused] at ran
  cases ran

def twoQuiet : Hub :=
  holding (.bare .default) [quietTool "alpha", quietTool "beta"]

/-- Who listens has everything stopped. -/
def stopper : BatchListener Hub :=
  fun _ _ => discard (View.whole.work cancel).attempt

theorem stopper_differs :
    ((background View.whole ["alpha", "beta"] (reportTo "") (some stopper) none).outcome twoQuiet).1 ≠
      ((runBatch View.whole ["alpha", "beta"] (reportTo "")).outcome twoQuiet).1 := by
  intro same
  have lengths := congrArg (fun e => e.toOption.map List.length) same
  revert lengths
  decide +kernel

/-- A batch in the background may be refused for want of workers, and who listens may stop it. -/
theorem not_every_background_agrees :
    ¬ (∀ (h : Hub) (names : List String) (r : Request),
        ((background View.whole names r none none).outcome h).1 =
          ((runBatch View.whole names r).outcome h).1) ∧
      ¬ ∀ (h : Hub) (names : List String) (r : Request) (listener : BatchListener Hub),
        0 < h.workers → (∀ name p h, ((listener name p).outcome h).1 = .ok ()) →
        ((background View.whole names r (some listener) none).outcome h).1 =
          ((runBatch View.whole names r).outcome h).1 := by
  constructor
  · intro claim
    exact withoutWorkers_differs (claim withoutWorkers ["alpha"] (reportTo ""))
  · intro claim
    have silent : ∀ name p h, ((stopper name p).outcome h).1 = .ok () := fun _ _ _ => rfl
    exact stopper_differs (claim twoQuiet ["alpha", "beta"] (reportTo "") stopper (by decide) silent)

end LintHub.Hub
