import LintHub.Proofs.Http.Table
import LintHub.Proofs.Work.Account

/-! # The histories of jobs

Jobs are ordered and asked about, batches are cancelled and other requests are served, while the
batches of the jobs go on, all of it at the same time. The accounts tell what each step is; `Allows`
is the rule that they keep to, and `Stands` says from what was told where a job stands.
-/

namespace LintHub.Http.Service.Jobs

variable {α : Type}

/-- What a step is. -/
inductive Event where
  | issued (id : String) (o : BatchOrder)
  /-- A job is not taken on. -/
  | declined
  /-- A step of the batch of a job. -/
  | works
  | ended (id : String) (e : Outcome)
  | polled (id : String) (answer : Except Fault Reply)
  | cancels
  | other

/-- How far a call has come. -/
inductive Part where
  | fresh
  | declined
  | working (id : String) (o : BatchOrder)
  | ended
  | answered (answer : Except Fault Reply)
  | aside

def Part.next : Part → Event → Part
  | .fresh, .issued id o => .working id o
  | .fresh, .declined => .declined
  | .fresh, .polled _ answer => .answered answer
  | .fresh, .cancels => .aside
  | .fresh, .other => .aside
  | .working _ _, .ended _ _ => .ended
  | p, _ => p

/-- What a step does to an entry of the table. -/
def Event.onEntry (id : String) : Event → Option (Option Outcome) → Option (Option Outcome)
  | .issued n _, x => x.or (if id = n then some none else none)
  | .ended n e, x => if id = n then x.map fun _ => some e else x
  | .polled n _, x => if id = n then afterPoll x else x
  | _, x => x

/-- How many jobs a step starts. A number is used up also if the job is not taken on. -/
def Event.starts : Event → Nat
  | .issued .. => 1
  | .declined => 1
  | _ => 0

/-- What a step does to the table. -/
structure Moves (s : Service) (e : Event) (s' : Service) : Prop where
  started : s'.started = s.started + e.starts
  entry : ∀ id, s'.entry id = e.onEntry id (s.entry id)

/-- Who may take which step. -/
inductive May : Part → Service → Event → Prop where
  | issues {s : Service} {id : String} (o : BatchOrder) (name : id = jobName (s.started + 1)) :
    May .fresh s (.issued id o)
  | declines (s : Service) : May .fresh s .declined
  | works (id : String) (o : BatchOrder) (s : Service) : May (.working id o) s .works
  /-- A job ends with what its own batch comes to. -/
  | ends {id : String} {o : BatchOrder} {e : Outcome} (s : Service)
    (own : Routine.Yields e (batch id o).run) : May (.working id o) s (.ended id e)
  | polls {s : Service} {id : String} {answer : Except Fault Reply}
    (tells : Tells id (s.entry id) answer) : May .fresh s (.polled id answer)
  | cancels (s : Service) : May .fresh s .cancels
  | other {p : Part} (s : Service) (who : p = .fresh ∨ p = .aside) : May p s .other

/-- The rule: who may take which step, and what it does. -/
structure Allows (p : Part) (s : Service) (e : Event) (s' : Service) : Prop where
  may : May p s e
  moves : Moves s e s'

theorem moves_of_same {s s' : Service} {e : Event} (same : Same s s') (idle : e.starts = 0)
    (still : ∀ id x, e.onEntry id x = x) : Moves s e s' where
  started := by rw [idle]; exact same.started
  entry id := by rw [still]; exact same.entry id

/-! ## Accounts -/

/-- Work whose steps tell what they are. -/
def telling (what : Service → Event) (w : Work Service α) : Account Service Event α :=
  .of (fun s _ => what s) w

/-- What it comes to if a job is ordered. -/
def handled (o : BatchOrder) (s : Service) : Event :=
  match ((startJob View.whole o).outcome s).1 with
  | .ok (id, _) => .issued id o
  | .error _ => .declined

def jobAccount (id : String) (o : BatchOrder) : Account Service Event Unit := do
  let e ← (telling (fun _ => .works) (batch id o)).attempt
  telling (fun _ => .ended id e) (View.whole.work (finishJob id e))

/-- What the service is asked for. -/
inductive Ask where
  /-- A job, which goes on when the request has been answered. -/
  | order (o : BatchOrder)
  | poll (id : String)
  | cancel
  | other (w : Work Service Unit)

namespace Ask

def work : Ask → Work Service (Option Reply)
  | order o => do
    let (_, routine) ← View.whole.work (startJob View.whole o)
    ExceptT.lift routine
    return none
  | poll id => some <$> View.whole.work (getJob id)
  | cancel => some <$> View.whole.work Service.cancel
  | other w => (fun _ => none) <$> w

def account : Ask → Account Service Event (Option Reply)
  | order o => do
    let (id, _) ← telling (handled o) (View.whole.work (startJob View.whole o))
    jobAccount id o
    return none
  | poll id => some <$>
      telling (fun s => .polled id ((getJob id).outcome s).1) (View.whole.work (getJob id))
  | cancel => some <$> telling (fun _ => .cancels) (View.whole.work Service.cancel)
  | other w => (fun _ => none) <$> telling (fun _ => .other) w

/-- Other requests leave the jobs alone. -/
def Polite : Ask → Prop
  | other w => Work.Within Same w
  | _ => True

end Ask

@[simp] theorem erase_telling (what : Service → Event) (w : Work Service α) :
    (telling what w).erase = w :=
  Account.erase_of _ w

/-- The work of a job is its batch and then noting the outcome. -/
theorem lift_jobRoutine (id : String) (o : BatchOrder) :
    (ExceptT.lift (jobRoutine View.whole id o) : Work Service Unit) =
      (batch id o).attempt >>= fun e => View.whole.work (finishJob id e) := by
  have split : Routine.bind (jobRoutine View.whole id o) (fun u => .done (.ok u)) =
      Routine.bind (batch id o).run fun e => (View.whole.work (finishJob id e)).run := by
    show Routine.bind (Routine.bind (batch id o).run _) _ = _
    rw [Routine.bind_assoc]
    rfl
  have joined : Routine.bind (Routine.bind (batch id o).run fun e => .done (Except.ok e))
      (ExceptT.bindCont fun e => View.whole.work (finishJob id e)) =
      Routine.bind (batch id o).run fun e => (View.whole.work (finishJob id e)).run := by
    rw [Routine.bind_assoc]
    rfl
  exact split.trans joined.symm

/-- What comes after an act only has to fit its answers. -/
theorem work_bind_congr {β : Type} {m : Act Service α} {k k' : α → Work Service β}
    (same : ∀ s a t, m.outcome s = (.ok a, t) → k a = k' a) :
    View.whole.work m >>= k = View.whole.work m >>= k' := by
  show Routine.act _ _ = Routine.act _ _
  congr 1
  funext s
  show Routine.bind (.done (m.outcome s).1) _ = Routine.bind (.done (m.outcome s).1) _
  rcases came : m.outcome s with ⟨f | a, t⟩
  · rfl
  · show (k a).run = (k' a).run
    rw [same s a t came]

/-- Forgetting what is told, an account is the work itself. -/
theorem Ask.erase_account (a : Ask) : a.account.erase = a.work := by
  cases a with
  | order o =>
    simp only [account, work, jobAccount, Account.erase_bind, erase_telling, Account.erase_attempt,
      Account.erase_pure]
    refine work_bind_congr fun s started t came => ?_
    obtain ⟨id, routine⟩ := started
    rcases outcome_startJob o s with ⟨id', s', issued, -⟩ | ⟨f, s', declined, -⟩
    · rw [issued] at came
      cases came
      rw [lift_jobRoutine]
    · rw [declined] at came
      cases came
  | poll id => simp [account, work]
  | cancel => simp [account, work]
  | other w => simp [account, work]

/-! ## Every call keeps to the rule -/

/-- What a call comes to. -/
structure Done (p : Part) (e : Except Fault (Option Reply)) : Prop where
  finished : ∀ id o, p ≠ .working id o
  answered : ∀ answer, p = .answered answer → e = answer.map some

abbrev Keeps (post : Part → Except Fault α → Prop) (p : Part) (w : Account Service Event α) : Prop :=
  w.run.Leads (fun _ => True) Allows Part.next post p

/-- A job is taken on or not. -/
theorem startJob_keeps (o : BatchOrder) : Keeps
    (fun p e => match e with
      | .ok (id, _) => p = .working id o
      | .error _ => p = .declined) .fresh
    (telling (handled o) (View.whole.work (startJob View.whole o))) := by
  refine Account.leads_step fun s _ => ?_
  have tells : handled o s = match ((startJob View.whole o).outcome s).1 with
    | .ok (id, _) => .issued id o
    | .error _ => .declined := rfl
  rcases outcome_startJob o s with ⟨id, s', came, issues⟩ | ⟨f, s', came, numbered, still⟩
  · rw [came] at tells
    refine ⟨_, s', came, ?_⟩
    dsimp only at tells ⊢
    rw [tells]
    exact ⟨⟨.issues o issues.name, issues.started, issues.entry⟩, rfl⟩
  · rw [came] at tells
    refine ⟨_, s', came, ?_⟩
    dsimp only at tells ⊢
    rw [tells]
    exact ⟨⟨.declines s, numbered, still⟩, rfl⟩

/-- The batch of a job goes on and comes to something. -/
theorem batch_keeps (id : String) (o : BatchOrder) : Keeps
    (fun p e => ∃ outcome, e = .ok outcome ∧ p = .working id o ∧
      Routine.Yields outcome (batch id o).run) (.working id o)
    (telling (fun _ => .works) (batch id o)).attempt := by
  have goes : Keeps (fun p e => p = .working id o ∧ Routine.Yields e (batch id o).run)
      (.working id o) (telling (fun _ => .works) (batch id o)) := by
    show Trail.Leads _ _ _ _ _ (Trail.mark (fun _ _ => Event.works) (batch id o).run)
    refine Trail.Leads.mark_yields (I := fun p => p = Part.working id o) (batch_same id o) ?_ ?_ rfl
    · rintro p s s' rfl -
      rfl
    · rintro p s s' rfl - same
      exact ⟨.works id o s, moves_of_same same rfl fun _ _ => rfl⟩
  exact Account.leads_attempt goes

theorem jobAccount_keeps (id : String) (o : BatchOrder) :
    Keeps (fun p e => e = .ok () ∧ p = .ended) (.working id o) (jobAccount id o) := by
  refine Account.leads_bind_ok (batch_keeps id o) ?_
  rintro p outcome ⟨rfl, own⟩
  refine Account.leads_step fun s _ => ?_
  have entries := entry_finishJob id outcome s
  refine ⟨_, _, rfl, ⟨.ends s own, rfl, entries⟩, rfl, rfl⟩

theorem getJob_keeps (id : String) : Keeps (fun p e => p = .answered e) .fresh
    (telling (fun s => .polled id ((getJob id).outcome s).1) (View.whole.work (getJob id))) := by
  refine Account.leads_step fun s _ => ?_
  obtain ⟨tells, started, entries⟩ := outcome_getJob id s
  exact ⟨_, _, rfl, ⟨.polls tells, started, entries⟩, rfl⟩

theorem cancel_keeps : Keeps (fun p _ => p = .aside) .fresh
    (telling (fun _ => .cancels) (View.whole.work Service.cancel)) :=
  Account.leads_step fun s _ =>
    ⟨_, _, rfl, ⟨.cancels s, moves_of_same (cancel_same s) rfl fun _ _ => rfl⟩, rfl⟩

theorem other_keeps {w : Work Service Unit} (polite : Work.Within Same w) :
    Keeps (fun p _ => p = .fresh ∨ p = .aside) .fresh (telling (fun _ => .other) w) := by
  refine Account.leads_of (I := fun p => p = Part.fresh ∨ p = Part.aside) polite ?_ ?_ (.inl rfl)
  · rintro p s s' (rfl | rfl) - <;> exact .inr rfl
  · intro p s s' who _ same
    exact ⟨.other s who, moves_of_same same rfl fun _ _ => rfl⟩

theorem Ask.account_keeps {a : Ask} (polite : a.Polite) : Keeps Done .fresh a.account := by
  cases a with
  | order o =>
    refine Account.leads_bind (startJob_keeps o) ?_ ?_
    · rintro p ⟨id, routine⟩ rfl
      refine Account.leads_bind (jobAccount_keeps id o) ?_ ?_
      · rintro p _ ⟨-, rfl⟩
        exact ⟨by simp, by simp⟩
      · rintro p f ⟨bad, -⟩
        cases bad
    · rintro p f rfl
      exact ⟨by simp, by simp⟩
  | poll id =>
    refine Account.leads_map (getJob_keeps id) ?_
    rintro p e rfl
    refine ⟨by simp, ?_⟩
    rintro _ ⟨⟩
    rfl
  | cancel =>
    refine Account.leads_map cancel_keeps ?_
    rintro p e rfl
    exact ⟨by simp, by simp⟩
  | other w =>
    refine Account.leads_map (other_keeps polite) ?_
    rintro p e (rfl | rfl) <;> exact ⟨by simp, by simp⟩

end LintHub.Http.Service.Jobs
