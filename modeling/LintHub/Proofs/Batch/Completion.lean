import LintHub.Proofs.Batch.Steady
import LintHub.Proofs.Work.Account
import LintHub.Proofs.Work.Stutter

/-! # The end of a batch in the background

Whoever hands over a batch may wait for its end. Remarks say what became of the batch and how those
who waited were called; they stand in idle steps of an account, so that nothing depends on them.
Whatever else goes on, a batch that is done has called exactly once.
-/

namespace LintHub.Hub.Completion

variable {α : Type}

inductive Remark where
  /-- The batch is taken on, or it is not since there are no workers. -/
  | taken (on : Bool)
  /-- What checking the names and running the tools came to. -/
  | came (e : Except Fault (List Analysis))
  /-- Who waits is called. -/
  | calls (as : List Analysis)
  /-- The call came back. -/
  | answered (c : Except Fault Unit)

/-- Work of which some steps are remarked on. -/
abbrev Remarked (α : Type) := Account Hub (Option Remark) α

def silently (w : Work Hub α) : Remarked α :=
  .of (fun _ _ => none) w

/-- An idle step that is remarked on. -/
def remark (r : Remark) : Remarked Unit :=
  .of (fun _ _ => some r) (View.whole.work (pure ()))

/-! ## Batches -/

structure Batch where
  names : List String
  request : Request
  listener : Option (BatchListener Hub)
  completion : Option (List Analysis → Work Hub Unit)

namespace Batch

def work (b : Batch) : Work Hub (List Analysis) := do
  View.whole.work submit
  task View.whole b.names b.request b.listener b.completion

/-- The checks and the turns of a batch. -/
def body (b : Batch) : Work Hub (List Analysis) := do
  View.whole.work (checkNames b.names)
  executeBatch View.whole b.names b.request b.listener

/-- Calls who waits. -/
def callAccount (b : Batch) (as : List Analysis) : Remarked Unit :=
  match b.completion with
  | none => pure ()
  | some f => do
    remark (.calls as)
    let c ← (silently (f as)).attempt
    remark (.answered c)
    Account.ofExcept c

def account (b : Batch) : Remarked (List Analysis) := do
  .of (fun h _ => some (.taken (0 < h.workers))) (View.whole.work submit)
  let e ← (silently b.body).attempt
  remark (.came e)
  match e with
  | .ok as =>
    b.callAccount as
    return as
  | .error f =>
    silently (View.whole.work (inWorld
      (report ⟨.error, .orchestrator, "Batch analysis failed", none, none, some f⟩)))
    b.callAccount []
    throw f

end Batch

/-- What goes on at the same time: batches, and any other work at all. -/
inductive Job where
  | batch (b : Batch)
  | other (w : Work Hub (List Analysis))

def Job.work : Job → Work Hub (List Analysis)
  | batch b => b.work
  | other w => w

def Job.account : Job → Remarked (List Analysis)
  | batch b => b.account
  | other w => silently w

/-! ## Accounts are the work itself -/

@[simp] theorem erase_silently (w : Work Hub α) : (silently w).erase = w :=
  Account.erase_of _ w

@[simp] theorem erase_remark (r : Remark) : (remark r).erase = View.whole.work (pure ()) :=
  Account.erase_of _ _

theorem Batch.callAccount_stutters (b : Batch) (as : List Analysis) :
    Work.Stutters (b.callAccount as).erase
      (match b.completion with
      | none => pure ()
      | some f => f as) := by
  unfold callAccount
  cases b.completion with
  | none => exact .refl _
  | some f =>
    simp only [Account.erase_bind, erase_remark, Account.erase_attempt, erase_silently,
      Account.erase_ofExcept]
    refine .idle ?_
    have answered : Work.Stutters
        ((f as).attempt >>= fun c => View.whole.work (pure ()) >>= fun _ => Work.ofExcept c)
        ((f as).attempt >>= Work.ofExcept) :=
      .bind (.refl _) fun c => .idle (.refl _)
    rw [Work.attempt_bind_ofExcept] at answered
    exact answered

theorem Batch.account_stutters (b : Batch) : Work.Stutters b.account.erase b.work := by
  unfold account work task
  simp only [Account.erase_bind, Account.erase_of, erase_remark, Account.erase_attempt, erase_silently]
  refine .bind (.refl _) fun _ => .bind (.refl _) fun e => .idle ?_
  have calls := b.callAccount_stutters
  cases e with
  | ok as =>
    simp only [Account.erase_bind, Account.erase_pure]
    refine .bind ?_ fun _ => .refl _
    cases waits : b.completion <;> simpa only [waits] using calls as
  | error f =>
    simp only [Account.erase_bind, Account.erase_throw, erase_silently]
    refine .bind (.refl _) fun _ => .bind ?_ fun _ => .refl _
    cases waits : b.completion <;> simpa only [waits] using calls []

theorem Job.account_stutters (j : Job) : Work.Stutters j.account.erase j.work := by
  cases j with
  | batch b => exact b.account_stutters
  | other w =>
    rw [Job.account, erase_silently]
    exact .refl w

/-! ## What is remarked -/

/-- What has been remarked of a call. -/
def hear (heard : List Remark) (e : Option Remark) : List Remark :=
  heard ++ e.toList

/-- What was remarked of the call `i`. -/
def heard (i : Nat) (es : List (Nat × Option Remark)) : List Remark :=
  modeAfter hear [] i es

/-- What has been remarked of a batch that is done with an answer or a fault. -/
inductive Reported (completion : Option (List Analysis → Work Hub Unit)) :
    List Remark → Except Fault (List Analysis) → Prop where
  /-- It was never taken on. -/
  | refused : Reported completion [.taken false] (.error .noWorkers)
  /-- Nobody waited. -/
  | alone (nobody : completion = none) (e : Except Fault (List Analysis)) :
    Reported completion [.taken true, .came e] e
  /-- Who waited was called once, with the analyses if there were some. -/
  | heeded (somebody : completion.isSome = true) (e : Except Fault (List Analysis)) :
    Reported completion [.taken true, .came e, .calls (e.toOption.getD []), .answered (.ok ())] e
  /-- Who waited was called once and failed, and so did the batch. -/
  | failed (somebody : completion.isSome = true) (e : Except Fault (List Analysis)) (f : Fault) :
    Reported completion [.taken true, .came e, .calls (e.toOption.getD []), .answered (.error f)]
      (.error f)

/-- What an account comes to after what has been remarked, and what has been remarked then. -/
abbrev Comes (post : List Remark → Except Fault α → Prop) (heard : List Remark) (w : Remarked α) :
    Prop :=
  w.run.Leads (fun _ => True) (fun _ _ _ _ => True) hear post heard

theorem silently_comes (w : Work Hub α) (heard : List Remark) :
    Comes (fun m _ => m = heard) heard (silently w) := by
  have any : Work.Within (fun _ _ => True) w := Routine.Within.of_all (fun _ _ => trivial) w.run
  refine Account.leads_of (I := fun m => m = heard) any ?_ (fun _ _ _ _ _ _ => trivial) rfl
  rintro m h h' rfl -
  exact List.append_nil m

theorem attempt_comes (w : Work Hub α) (heard : List Remark) :
    Comes (fun m e => ∃ o, e = .ok o ∧ m = heard) heard (silently w).attempt :=
  Account.leads_attempt (silently_comes w heard)

theorem remark_comes (r : Remark) (heard : List Remark) :
    Comes (fun m e => ∃ u, e = .ok u ∧ m = heard ++ [r]) heard (remark r) :=
  Account.leads_step fun h _ => ⟨_, h, rfl, trivial, _, rfl, rfl⟩

theorem report_comes (r : LogEvent) (heard : List Remark) :
    Comes (fun m e => ∃ u, e = .ok u ∧ m = heard) heard
      (silently (View.whole.work (inWorld (report r)))) :=
  Account.leads_step fun _ _ => ⟨_, _, rfl, trivial, _, rfl, List.append_nil heard⟩

namespace Batch

/-- What a call of who waits adds to the remarks, and how it comes back. -/
def Called (b : Batch) (heard : List Remark) (as : List Analysis) (m : List Remark)
    (c : Except Fault Unit) : Prop :=
  match b.completion with
  | none => m = heard ∧ c = .ok ()
  | some _ => m = heard ++ [.calls as, .answered c]

theorem callAccount_comes (b : Batch) (as : List Analysis) (heard : List Remark) :
    Comes (b.Called heard as) heard (b.callAccount as) := by
  unfold callAccount Called
  cases b.completion with
  | none => exact ⟨rfl, rfl⟩
  | some f =>
    refine Account.leads_bind_ok (remark_comes _ heard) ?_
    rintro m _ rfl
    refine Account.leads_bind_ok (attempt_comes (f as) _) ?_
    rintro m c rfl
    refine Account.leads_bind_ok (remark_comes _ _) ?_
    rintro m _ rfl
    show _ = _
    rw [List.append_assoc]
    rfl

theorem submit_comes : Comes
    (fun m e => e = .ok () ∧ m = [.taken true] ∨ e = .error .noWorkers ∧ m = [.taken false]) []
    (.of (fun h _ => some (.taken (0 < h.workers))) (View.whole.work submit)) := by
  refine Account.leads_step fun h _ => ⟨_, _, outcome_submit h, trivial, ?_⟩
  by_cases workers : 0 < h.workers
  · rw [if_pos workers, decide_eq_true workers]
    exact .inl ⟨rfl, rfl⟩
  · rw [if_neg workers, decide_eq_false workers]
    exact .inr ⟨rfl, rfl⟩

/-- Once it is known what a batch came to, who waits is called and the batch is done. -/
theorem called_reported (b : Batch) {e : Except Fault (List Analysis)} {m : List Remark}
    {c : Except Fault Unit}
    (called : b.Called [.taken true, .came e] (e.toOption.getD []) m c) :
    Reported b.completion m (c.bind fun _ => e) := by
  unfold Called at called
  cases waits : b.completion with
  | none =>
    rw [waits] at called
    obtain ⟨rfl, rfl⟩ := called
    exact .alone rfl e
  | some f =>
    rw [waits] at called
    cases called
    cases c with
    | ok _ => exact .heeded rfl e
    | error g => exact .failed rfl e g

theorem account_comes (b : Batch) : Comes (Reported b.completion) [] b.account := by
  unfold account
  refine Account.leads_bind submit_comes ?_ ?_
  · rintro m _ (⟨-, rfl⟩ | ⟨bad, -⟩)
    · refine Account.leads_bind_ok (attempt_comes b.body _) ?_
      rintro m e rfl
      refine Account.leads_bind_ok (remark_comes _ _) ?_
      rintro m _ rfl
      cases e with
      | ok as =>
        refine Account.leads_bind (b.callAccount_comes as _) ?_ ?_
        · intro m _ called
          exact b.called_reported called
        · intro m f called
          exact b.called_reported called
      | error f =>
        refine Account.leads_bind_ok (report_comes _ _) ?_
        rintro m _ rfl
        refine Account.leads_bind (b.callAccount_comes [] _) ?_ ?_
        · intro m _ called
          exact b.called_reported called
        · intro m g called
          exact b.called_reported called
    · cases bad
  · rintro m f (⟨bad, -⟩ | ⟨refused, rfl⟩)
    · cases bad
    · cases refused
      exact .refused

end Batch

section
variable {jobs : List Job} {h₀ : Hub} {i : Nat} {b : Batch} {v : Except Fault (List Analysis)}

theorem reported_of_steps {es : List (Nat × Option Remark)}
    {q : Pool Hub (Trail Hub (Option Remark) (Except Fault (List Analysis)))}
    (steps : Steps (fun _ => False) ⟨h₀, jobs.map fun j => j.account.run⟩ es q)
    (here : jobs[i]? = some (.batch b)) (done : q.calls[i]? = some (.done v)) :
    Reported b.completion (heard i es) v := by
  have each : ∀ (i : Nat) (t : Trail Hub (Option Remark) (Except Fault (List Analysis))),
      (jobs.map fun j => j.account.run)[i]? = some t →
      t.Leads (fun _ => True) (fun _ _ _ _ => True) hear
        (fun m e => ∀ b, jobs[i]? = some (.batch b) → Reported b.completion m e) [] := by
    intro i t there
    rw [List.getElem?_map] at there
    obtain ⟨j, job, rfl⟩ := Option.map_eq_some_iff.mp there
    cases j with
    | batch b =>
      refine b.account_comes.mono ?_
      intro m e reported b' here
      cases job.symm.trans here
      exact reported
    | other w =>
      refine (silently_comes w []).mono ?_
      intro m e _ b here
      cases job.symm.trans here
  exact steps.leads_each each done b here

/-- Whatever goes on at the same time, by the time that a batch is done who waits for it was called once,
with its analyses or with none, and the batch has become what it came to or what went wrong with the
call. -/
theorem completion_reported {q : Pool Hub (Routine Hub (Except Fault (List Analysis)))}
    (happens : Happens (fun _ => False) ⟨h₀, jobs.map fun j => j.work.run⟩ q)
    (here : jobs[i]? = some (.batch b)) (done : q.calls[i]? = some (.done v)) :
    ∃ es q', Steps (fun _ => False) ⟨h₀, jobs.map fun j => j.account.run⟩ es q' ∧
      q'.state = q.state ∧ q'.calls[i]? = some (.done v) ∧
      Reported b.completion (heard i es) v := by
  have both : Pool.Stutters (Pool.erase ⟨h₀, jobs.map fun j => j.account.run⟩)
      ⟨h₀, jobs.map fun j => j.work.run⟩ := by
    have erased : Pool.erase ⟨h₀, jobs.map fun j => j.account.run⟩ =
        ⟨h₀, jobs.map fun j => j.account.erase.run⟩ := by
      unfold Pool.erase
      rw [List.map_map]
      rfl
    rw [erased]
    exact .of_map jobs fun j => j.account_stutters
  obtain ⟨es, q', steps, state, ended⟩ := happens.told both done
  exact ⟨es, q', steps, state, ended, reported_of_steps steps here ended⟩

end

/-- A batch that ends well, and one without tools. Who waits for the first one fails. -/
def twoBatches : List Job :=
  [.batch ⟨["alpha"], reportTo "", none, some fun _ => throw .nullTool⟩,
    .batch ⟨[], reportTo "", none, some fun _ => pure ()⟩]

theorem completion_reported_two : ∃ q : Pool Hub (Routine Hub (Except Fault (List Analysis))),
    q.calls[0]? = some (.done (.error .nullTool)) ∧ q.calls[1]? = some (.done (.error .noTools)) ∧
      ∃ es q', Steps (fun _ => False)
          ⟨holding (.bare .default) [quietTool "alpha"], twoBatches.map fun j => j.account.run⟩ es q' ∧
        q'.state = q.state ∧ q'.calls[0]? = some (.done (.error .nullTool)) ∧
        Reported (some fun _ => throw .nullTool) (heard 0 es) (.error .nullTool) := by
  have happens := Happens.play (s := holding (.bare .default) [quietTool "alpha"])
    (twoBatches.map fun j => j.work.run) [0, 0, 1, 0, 1, 0, 0, 1, 0, 0, 0, 0, 0, 0, 0]
  exact ⟨_, rfl, rfl, completion_reported (i := 0) happens rfl rfl⟩

end LintHub.Hub.Completion
