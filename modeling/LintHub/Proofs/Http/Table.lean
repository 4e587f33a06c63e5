import LintHub.Http.Service
import LintHub.Proofs.Batch.Bounds
import LintHub.Proofs.Lists
import LintHub.Proofs.Text.Numerals

/-! # The table of jobs

What the table shows of a name: nothing, a job that goes on, or one that has ended with its outcome.
Each act of the service on its jobs changes one entry at most, and the steps of a batch change none.
-/

namespace LintHub.Http.Service

/-- How a job ends. -/
abbrev Outcome := Except Fault (List Analysis)

/-- Whether the outcome of a job can be told. -/
def Writable : Outcome → Prop
  | .ok as => ∃ docs, analysesJson as = .ok docs
  | .error _ => True

/-- What the table shows of a name. -/
def entry (s : Service) (id : String) : Option (Option Outcome) :=
  (s.job? id).map (·.outcome)

/-! ## Look-ups -/

theorem lookup_changeJob (f : Job → Job) (id x : String) (jobs : List (String × Job)) :
    (changeJob f id jobs).lookup x =
      if x = id then (jobs.lookup x).map f else jobs.lookup x := by
  induction jobs with
  | nil => simp [changeJob]
  | cons p jobs ih =>
    obtain ⟨i, j⟩ := p
    rw [changeJob]
    split
    · next here =>
      subst here
      rw [lookup_cons_ite, lookup_cons_ite]
      split <;> rfl
    · next other =>
      rw [lookup_cons_ite, lookup_cons_ite, ih]
      by_cases same : x = i
      · subst same
        rw [if_pos rfl, if_pos rfl, if_neg other]
      · rw [if_neg same, if_neg same]

/-- A table of which only some names are kept. -/
theorem lookup_filter (keeps : String → Bool) (x : String) (jobs : List (String × Job)) :
    (jobs.filter fun p => keeps p.1).lookup x = if keeps x then jobs.lookup x else none := by
  induction jobs with
  | nil => simp
  | cons p jobs ih =>
    obtain ⟨i, j⟩ := p
    rw [lookup_cons_ite]
    by_cases here : keeps i = true
    · rw [List.filter_cons_of_pos (by exact here), lookup_cons_ite, ih]
      by_cases same : x = i
      · subst same
        rw [if_pos rfl, if_pos rfl, if_pos here]
      · rw [if_neg same, if_neg same]
    · rw [List.filter_cons_of_neg (by exact here), ih]
      by_cases same : x = i
      · subst same
        rw [if_neg here, if_neg here]
      · rw [if_neg same]

theorem lookup_filter_ne (id x : String) (jobs : List (String × Job)) :
    (jobs.filter fun p => p.1 ≠ id).lookup x = if x = id then none else jobs.lookup x := by
  rw [lookup_filter fun i => decide (i ≠ id)]
  by_cases same : x = id <;> simp [same]

theorem lookup_filter_eq (id x : String) (jobs : List (String × Job)) :
    (jobs.filter fun p => p.1 = id).lookup x = if x = id then jobs.lookup x else none := by
  rw [lookup_filter fun i => decide (i = id)]
  by_cases same : x = id <;> simp [same]

/-! ## Acts that change no entry -/

/-- As many jobs as before were started, and the table shows the same of every name. -/
structure Same (s s' : Service) : Prop where
  started : s'.started = s.started
  entry : ∀ id, s'.entry id = s.entry id

theorem Same.refl (s : Service) : Same s s :=
  ⟨rfl, fun _ => rfl⟩

theorem Same.trans {s t u : Service} (a : Same s t) (b : Same t u) : Same s u :=
  ⟨b.started.trans a.started, fun id => (b.entry id).trans (a.entry id)⟩

/-- Whatever is done with the hub. -/
theorem hub_same (s : Service) (h : Hub) : Same s { s with hub := h } :=
  ⟨rfl, fun _ => rfl⟩

theorem inHub_same {α : Type} (m : Act Hub α) : Act.Within Same (inHub m) :=
  fun s => hub_same s _

theorem noteProgress_same (id tool : String) (p : Progress) :
    Act.Within Same (noteProgress id tool p) := by
  intro s
  refine ⟨rfl, fun x => ?_⟩
  show ((changeJob _ id s.jobs).lookup x).map _ = (s.jobs.lookup x).map _
  rw [lookup_changeJob]
  split
  · rw [Option.map_map]
    rfl
  · rfl

/-- What is done at the end of a batch is done to the hub. -/
theorem completeJob_within {R : Service → Service → Prop} (hub : ∀ s h, R s { s with hub := h })
    (trans : ∀ s t u, R s t → R t u → R s u) (id : String) (o : BatchOrder) (as : List Analysis) :
    Act.Within R (completeJob id o as) := by
  have world {α : Type} (m : Act World α) : Act.Within R (inWorld m) := fun s => hub s _
  have refl (s : Service) : R s s := hub s s.hub
  unfold completeJob
  refine .bind (world _) (fun _ => ?_) trans
  cases o.saveTo with
  | none => exact refl
  | some path =>
    dsimp only
    split
    · exact refl
    · refine .bind (.attempt (world _)) (fun e => ?_) trans
      cases e with
      | ok _ => exact refl
      | error f =>
        dsimp only
        split
        · exact world _
        · exact refl

theorem completeJob_same (id : String) (o : BatchOrder) (as : List Analysis) :
    Act.Within Same (completeJob id o as) :=
  completeJob_within hub_same (fun _ _ _ => .trans) id o as

theorem cancel_same : Act.Within Same cancel :=
  .bind (inHub_same _) (fun _ => Same.refl) fun _ _ _ => .trans

/-- The batch of a job. -/
def batch (id : String) (o : BatchOrder) : Work Service (List Analysis) :=
  Hub.task (View.whole.trans hubView) o.tools o.request
    (some fun tool p => View.whole.work (noteProgress id tool p))
    (some fun as => View.whole.work (completeJob id o as))

/-- A batch changes no entry, not even that of its own job. -/
theorem batch_same (id : String) (o : BatchOrder) : Work.Within Same (batch id o) := by
  refine Hub.task_bounded (fun s h _ => hub_same s h) (fun f hf tool p => ?_) (fun f hf as => ?_) _ _
  · cases hf
    exact .work (noteProgress_same id tool p)
  · cases hf
    exact .work (completeJob_same id o as)

/-! ## Acts that change one entry -/

theorem entry_finishJob (id : String) (e : Outcome) (s : Service) (x : String) :
    ((finishJob id e).outcome s).2.entry x =
      if x = id then (s.entry x).map fun _ => some e else s.entry x := by
  show ((changeJob _ id s.jobs).lookup x).map _ = _
  rw [lookup_changeJob]
  split
  · rw [Option.map_map, entry, Option.map_map]
    rfl
  · rfl

theorem entry_dropJob (id : String) (s : Service) (x : String) :
    ((dropJob id).outcome s).2.entry x = if x = id then none else s.entry x := by
  show ((s.jobs.filter _).lookup x).map _ = _
  rw [lookup_filter_ne]
  split <;> rfl

/-- The service after it took on a job. -/
structure Issues (id : String) (s s' : Service) : Prop where
  name : id = jobName (s.started + 1)
  started : s'.started = s.started + 1
  entry : ∀ x, s'.entry x = (s.entry x).or (if x = id then some none else none)

/-- A job is taken on, or there are no workers. -/
theorem outcome_startJob (o : BatchOrder) (s : Service) :
    (∃ id s', (startJob View.whole o).outcome s = (.ok (id, jobRoutine View.whole id o), s') ∧
      Issues id s s') ∨
    ∃ f s', (startJob View.whole o).outcome s = (.error f, s') ∧ s'.started = s.started + 1 ∧
      ∀ x, s'.entry x = s.entry x := by
  unfold startJob
  rw [Act.outcome_bind_ok (Act.outcome_get s),
    Act.outcome_bind_ok (Act.outcome_modify _ s)]
  rcases handed : (inHub Hub.submit).outcome { s with started := s.started + 1 } with ⟨f | u, t⟩
  · refine .inr ⟨f, t, Act.outcome_bind_error handed, ?_⟩
    have same := inHub_same Hub.submit { s with started := s.started + 1 }
    rw [handed] at same
    exact ⟨same.started, same.entry⟩
  · have same := inHub_same Hub.submit { s with started := s.started + 1 }
    rw [handed] at same
    refine .inl ⟨jobName (s.started + 1),
      { t with jobs := t.jobs ++ [(jobName (s.started + 1), .new)] }, ?_, rfl, same.started, ?_⟩
    · rw [Act.outcome_bind_ok handed]
      rfl
    · intro x
      have before : t.entry x = s.entry x := same.entry x
      rw [← before]
      show ((t.jobs ++ _).lookup x).map _ = ((t.jobs.lookup x).map _).or _
      rw [List.lookup_append, lookup_cons_ite]
      cases t.jobs.lookup x with
      | some j => rfl
      | none => split <;> rfl

/-! ## Polls -/

/-- What is left in the table of a job that is asked about: one that has ended goes when its outcome
can be told. -/
def afterPoll : Option (Option Outcome) → Option (Option Outcome)
  | some (some (.error _)) => none
  | some (some (.ok as)) =>
    match analysesJson as with
    | .ok _ => none
    | .error _ => some (some (.ok as))
  | x => x

theorem afterPoll_of_writable {e : Outcome} (writable : Writable e) :
    afterPoll (some (some e)) = none := by
  cases e with
  | error f => rfl
  | ok as =>
    obtain ⟨docs, told⟩ := writable
    rw [afterPoll, told]

theorem afterPoll_of_not_writable {e : Outcome} (bad : ¬ Writable e) :
    afterPoll (some (some e)) = some (some e) := by
  cases e with
  | error f => exact absurd trivial bad
  | ok as =>
    rw [afterPoll]
    cases told : analysesJson as with
    | ok docs => exact absurd ⟨docs, told⟩ bad
    | error f => rfl

/-- What is told of a job by its entry. -/
inductive Tells (id : String) : Option (Option Outcome) → Except Fault Reply → Prop where
  | unknown : Tells id none (.ok (.refusal 404 "Job not found"))
  | running (progress : List (String × Progress)) :
    Tells id (some none) (.ok (.document (jobJson id "running" progress .null .null)))
  | failed (f : Fault) (progress : List (String × Progress)) :
    Tells id (some (some (.error f)))
      (.ok (.document (jobJson id "failed" progress .null (.str f.message))))
  | done {as : List Analysis} {docs : Json} (told : analysesJson as = .ok docs)
    (progress : List (String × Progress)) :
    Tells id (some (some (.ok as))) (.ok (.document (jobJson id "done" progress docs .null)))
  /-- An outcome of which there is no document. -/
  | untold {as : List Analysis} {f : Fault} (bad : analysesJson as = .error f) :
    Tells id (some (some (.ok as))) (.error f)

theorem outcome_getJob (id : String) (s : Service) :
    Tells id (s.entry id) ((getJob id).outcome s).1 ∧
      ((getJob id).outcome s).2.started = s.started ∧
      ∀ x, ((getJob id).outcome s).2.entry x =
        if x = id then afterPoll (s.entry x) else s.entry x := by
  have dropped (x : String) := entry_dropJob id s x
  have still (left : afterPoll (s.entry id) = s.entry id) (x : String) :
      s.entry x = if x = id then afterPoll (s.entry x) else s.entry x := by
    split
    · next same =>
      subst same
      exact left.symm
    · rfl
  have gone (left : afterPoll (s.entry id) = none) (x : String) :
      ((dropJob id).outcome s).2.entry x = if x = id then afterPoll (s.entry x) else s.entry x := by
    rw [dropped]
    split
    · next same =>
      subst same
      exact left.symm
    · rfl
  unfold getJob
  rw [Act.outcome_bind_ok (Act.outcome_get s)]
  cases found : s.job? id with
  | none =>
    have here : s.entry id = none := by rw [entry, found]; rfl
    rw [here] at still ⊢
    exact ⟨.unknown, rfl, still rfl⟩
  | some j =>
    have here : s.entry id = some j.outcome := by rw [entry, found]; rfl
    dsimp only
    cases ended : j.outcome with
    | none =>
      rw [here, ended] at still ⊢
      exact ⟨.running _, rfl, still rfl⟩
    | some e =>
      cases e with
      | error f =>
        rw [here, ended] at gone ⊢
        exact ⟨.failed f _, rfl, gone rfl⟩
      | ok as =>
        rw [here, ended] at still gone ⊢
        cases told : analysesJson as with
        | error f =>
          rw [Act.outcome_bind_error (by rw [told]; exact Act.outcome_except _ s)]
          exact ⟨.untold told, rfl, still (by rw [afterPoll, told])⟩
        | ok docs =>
          rw [Act.outcome_bind_ok (by rw [told]; exact Act.outcome_except _ s)]
          exact ⟨.done told _, rfl, gone (by rw [afterPoll, told])⟩

end LintHub.Http.Service
