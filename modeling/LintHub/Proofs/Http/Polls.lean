import LintHub.Proofs.Http.Jobs
import LintHub.Proofs.Http.Shown

/-! # Polls of a job that goes on

A poll looks for a job, copies its progress, and sees only then whether the job has ended. Between
these sections the job goes on, and so does everything else that leaves the job alone. `Worker` and
`Stage` say how far the work of the job and a poll of it have come; each step of one of them leaves
the other where it is.
-/

namespace LintHub.Http.Service

/-! ## Polls at once -/

theorem held_of_job {s : Service} {id : String} {j : Job} (there : s.job? id = some j) :
    s.held? id = some j := by
  unfold held?
  rw [show s.jobs.lookup id = some j from there]
  rfl

/-- A poll that nothing comes in between is answered at once. -/
theorem outcome_pollJob (id : String) (s : Service) :
    (pollJob View.whole id).outcome s = (getJob id).outcome s := by
  unfold pollJob getJob tellJob
  rw [Work.outcome_bind_ok (show (View.whole.work _).outcome s = (.ok (s.job? id), s) from rfl),
    Act.outcome_bind_ok (Act.outcome_get s)]
  cases found : s.job? id with
  | none => rfl
  | some j =>
    dsimp only
    rw [Work.outcome_bind_ok (show (View.whole.work _).outcome s =
        (.ok ((s.held? id).getD j).progress, s) from rfl),
      Work.outcome_bind_ok (show (View.whole.work _).outcome s =
        (.ok (s.held? id >>= Job.outcome), s) from rfl), held_of_job found,
      show some j >>= Job.outcome = j.outcome from rfl]
    rcases j.outcome with _ | f | as
    · rfl
    · rfl
    · dsimp only
      cases told : analysesJson as with
      | error f =>
        rw [Act.outcome_bind_error (Act.outcome_except _ s)]
        rfl
      | ok docs =>
        rw [Act.outcome_bind_ok (Act.outcome_except _ s)]
        rfl

namespace Polls

open Jobs

/-! ## A job and a poll of it -/

abbrev Call := Routine Service (Except Fault (Option Reply))

/-- The work of the job with the name `id`, that was taken on for the order `o`. -/
def working (id : String) (o : BatchOrder) : Call :=
  (do
    ExceptT.lift (jobRoutine View.whole id o)
    return none : Work Service (Option Reply)).run

/-- What is left of the work of the job `id` when its batch has come to `e`. -/
def ending (id : String) (e : Outcome) : Call :=
  .act (fun s => ((finishJob id e).outcome s).2) fun _ => .done (.ok none)

theorem working_eq (id : String) (o : BatchOrder) :
    working id o = (batch id o).run.bind (ending id) := by
  have work : ((do
      ExceptT.lift (jobRoutine View.whole id o)
      return none : Work Service (Option Reply))) =
      ((batch id o).attempt >>= fun e => View.whole.work (finishJob id e)) >>= fun _ => pure none := by
    rw [← lift_jobRoutine]
  unfold working
  rw [work]
  show Routine.bind (Routine.bind (Routine.bind (batch id o).run _) _) _ = _
  rw [Routine.bind_assoc, Routine.bind_assoc]
  rfl

/-- A poll of the job `id`. -/
def polling (id : String) : Call :=
  (some <$> pollJob View.whole id).run

/-- What is left of a poll of the job `id` that has copied `progress`. -/
def seeing (id : String) (progress : List (String × Progress)) : Call :=
  (some <$> tellJob View.whole id progress).run

/-- What is left of a poll that has found the job `id` to be `j`. -/
def copying (id : String) (j : Job) : Call :=
  .act (fun s => s) fun s => seeing id ((s.held? id).getD j).progress

/-- What is left of a poll that has ended with `reply`, but for the job `id` to be dropped. -/
def dropping (id : String) (reply : Reply) : Call :=
  .act (fun s => ((dropJob id).outcome s).2) fun _ => .done (.ok (some reply))

/-- What is left of a poll that has looked for the job `id` in `s`. -/
def looked (id : String) (s : Service) : Call :=
  match s.job? id with
  | none => .done (.ok (some (.refusal 404 "Job not found")))
  | some j => copying id j

/-- What is left of a poll that has copied `progress`, and has seen in `s` whether the job `id` has
ended. -/
def seen (id : String) (progress : List (String × Progress)) (s : Service) : Call :=
  match s.held? id >>= Job.outcome with
  | none => .done (.ok (some (.document (jobJson id "running" progress .null .null))))
  | some (.error f) => dropping id (.document (jobJson id "failed" progress .null (.str f.message)))
  | some (.ok as) =>
    match analysesJson as with
    | .error f => .done (.error f)
    | .ok docs => dropping id (.document (jobJson id "done" progress docs .null))

theorem polling_eq (id : String) : polling id = .act (fun s => s) (looked id) := by
  unfold polling pollJob
  show Routine.act _ _ = _
  congr 1
  funext s
  show (some <$> (match s.job? id with
    | none => _
    | some j => _ : Work Service Reply)).run = _
  unfold looked
  cases s.job? id <;> rfl

theorem seeing_eq (id : String) (progress : List (String × Progress)) :
    seeing id progress = .act (fun s => s) (seen id progress) := by
  unfold seeing tellJob
  show Routine.act _ _ = _
  congr 1
  funext s
  show (some <$> (match s.held? id >>= Job.outcome with
    | none => _
    | some (.error f) => _
    | some (.ok as) => _ : Work Service Reply)).run = _
  unfold seen
  rcases s.held? id >>= Job.outcome with _ | f | as
  · rfl
  · rfl
  · dsimp only
    cases analysesJson as <;> rfl

/-! ## What goes on beside them -/

/-- A step from `s` to `s'` leaves the job alone that was taken on as number `n`. -/
structure KeepsJob (n : Nat) (s s' : Service) : Prop where
  started : s.started ≤ s'.started
  job : s'.job? (jobName n) = s.job? (jobName n)
  held : s'.held? (jobName n) = s.held? (jobName n)

/-- A call never touches the job with the number `n`, once that many have been counted. -/
def Elsewhere {α : Type} (n : Nat) : Routine Service α → Prop
  | .done _ => True
  | .act step next => ∀ s, n ≤ s.started → KeepsJob n s (step s) ∧ Elsewhere n (next s)
  | .wait next => Elsewhere n next

/-- From the pool `p` to the pool `q` nobody touches the job with the number `n`, but polls of it and
its own work. -/
abbrev HappensBeside (n : Nat) (p q : Pool Service Call) : Prop :=
  Happens (fun r => Elsewhere n r ∨ r = polling (jobName n)) p q

/-- In `s` there go on the work of the job with the number `n`, that was taken on for the order `o`, and
a poll of it. -/
def scene (n : Nat) (o : BatchOrder) (s : Service) : Pool Service Call :=
  ⟨s, [working (jobName n) o, polling (jobName n)]⟩

/-- A step from `s` to `s'` leaves the job `id` as those see it who hold it, and drops it only if it
has ended. -/
structure Leaves (id : String) (s s' : Service) : Prop where
  started : s.started ≤ s'.started
  held : s'.held? id = s.held? id
  gone : s.job? id = none → s'.job? id = none
  on : ∀ x, s.job? id = some ⟨x, none⟩ → s'.job? id = s.job? id

section
variable {id : String} {s s' : Service} {n : Nat}

theorem Leaves.refl : Leaves id s s :=
  ⟨Nat.le_refl _, rfl, fun none => none, fun _ _ => rfl⟩

theorem KeepsJob.leaves (keeps : KeepsJob n s s') : Leaves (jobName n) s s' where
  started := keeps.started
  held := keeps.held
  gone none := keeps.job.trans none
  on _ _ := keeps.job

theorem job_dropJob : ((dropJob id).outcome s).2.job? id = none :=
  (lookup_filter_ne id id s.jobs).trans (if_pos rfl)

/-- Who holds a job still sees it when it has been dropped. -/
theorem held_dropJob (id x : String) (s : Service) :
    ((dropJob id).outcome s).2.held? x = s.held? x := by
  show ((s.jobs.filter fun p => p.1 ≠ id).lookup x).or
    (((s.jobs.filter fun p => p.1 = id) ++ s.gone).lookup x) = (s.jobs.lookup x).or (s.gone.lookup x)
  rw [List.lookup_append, lookup_filter_ne, lookup_filter_eq]
  by_cases same : x = id
  · rw [if_pos same, if_pos same, Option.none_or]
  · rw [if_neg same, if_neg same, Option.none_or]

theorem dropJob_leaves {x : List (String × Progress)} {e : Outcome}
    (ended : s.held? id = some ⟨x, some e⟩) : Leaves id s ((dropJob id).outcome s).2 where
  started := Nat.le_refl _
  held := held_dropJob id id s
  gone _ := job_dropJob
  on x on := by
    rw [held_of_job on] at ended
    cases ended

end

/-! ## Calls that have nothing to do with a job -/

section
variable {α : Type} {n : Nat} {id : String}

theorem Elsewhere.of_within {r : Routine Service α} (keeps : r.Within (KeepsJob n)) :
    Elsewhere n r := by
  induction r with
  | done a => trivial
  | act step next ih => exact fun s _ => ⟨keeps.1 s, ih s (keeps.2 s)⟩
  | wait next ih => exact ih keeps

theorem hub_keepsJob (s : Service) (h : Hub) : KeepsJob n s { s with hub := h } :=
  ⟨Nat.le_refl _, rfl, rfl⟩

theorem KeepsJob.trans {s t u : Service} (first : KeepsJob n s t) (second : KeepsJob n t u) :
    KeepsJob n s u :=
  ⟨Nat.le_trans first.started second.started, second.job.trans first.job, second.held.trans first.held⟩

theorem changeJob_keepsJob (other : jobName n ≠ id) (f : Job → Job) (s : Service) :
    KeepsJob n s { s with jobs := changeJob f id s.jobs } := by
  have same : (changeJob f id s.jobs).lookup (jobName n) = s.jobs.lookup (jobName n) := by
    rw [lookup_changeJob, if_neg other]
  refine ⟨Nat.le_refl _, same, ?_⟩
  unfold held?
  dsimp only
  rw [same]

/-- Whatever is done with the hub alone. -/
theorem elsewhere_of_hub {r : Routine Service α}
    (hub : r.Within fun s s' => ∃ h, s' = { s with hub := h }) : Elsewhere n r := by
  induction r with
  | done a => trivial
  | act step next ih =>
    intro s _
    obtain ⟨h, done⟩ := hub.1 s
    rw [done]
    exact ⟨hub_keepsJob s h, ih s (hub.2 s)⟩
  | wait next ih => exact ih hub

/-- The work of another job. -/
theorem elsewhere_working (other : jobName n ≠ id) (o : BatchOrder) : Elsewhere n (working id o) := by
  rw [working_eq]
  have batch : Work.Within (KeepsJob n) (batch id o) := by
    refine Hub.task_bounded (fun s h _ => hub_keepsJob s h) (fun f hf tool p => ?_)
      (fun f hf as => ?_) _ _
    · cases hf
      exact .work (changeJob_keepsJob other _)
    · cases hf
      exact .work (completeJob_within hub_keepsJob (fun _ _ _ => .trans) id o as)
  exact .of_within (Routine.Within.bind batch fun e => ⟨changeJob_keepsJob other _, fun _ => trivial⟩)

theorem dropJob_keepsJob (other : jobName n ≠ id) (s : Service) :
    KeepsJob n s ((dropJob id).outcome s).2 :=
  ⟨Nat.le_refl _, (lookup_filter_ne id (jobName n) s.jobs).trans (if_neg other), held_dropJob id _ s⟩

/-- A poll of another job. -/
theorem elsewhere_polling (other : jobName n ≠ id) : Elsewhere n (polling id) := by
  have still (s : Service) : KeepsJob n s s := hub_keepsJob s s.hub
  rw [polling_eq]
  intro s _
  refine ⟨still s, ?_⟩
  unfold looked
  cases s.job? id with
  | none => trivial
  | some j =>
    intro s _
    refine ⟨still s, ?_⟩
    dsimp only
    rw [seeing_eq]
    intro s _
    refine ⟨still s, ?_⟩
    unfold seen
    rcases s.held? id >>= Job.outcome with _ | f | as
    · trivial
    · exact fun s _ => ⟨dropJob_keepsJob other s, trivial⟩
    · dsimp only
      cases analysesJson as with
      | error f => trivial
      | ok docs => exact fun s _ => ⟨dropJob_keepsJob other s, trivial⟩

/-- A job that is taken on gets a name of its own. -/
theorem startJob_keepsJob (o : BatchOrder) {s : Service} (counted : n ≤ s.started) :
    KeepsJob n s ((startJob View.whole o).outcome s).2 ∧
      ∀ id r, ((startJob View.whole o).outcome s).1 = .ok (id, r) → jobName n ≠ id := by
  have other : jobName n ≠ jobName (s.started + 1) := by
    intro same
    have := Text.hexText_injective 32 same
    omega
  have counts (h : Hub) : KeepsJob n s { s with hub := h, started := s.started + 1 } :=
    ⟨Nat.le_succ _, rfl, rfl⟩
  unfold startJob
  rw [Act.outcome_bind_ok (Act.outcome_get s), Act.outcome_bind_ok (Act.outcome_modify _ s)]
  rcases handed : (inHub Hub.submit).outcome { s with started := s.started + 1 } with ⟨f | u, t⟩
  · rw [Act.outcome_bind_error handed]
    rw [inHub, Act.outcome_view] at handed
    obtain ⟨-, rfl⟩ := Prod.mk.inj handed
    exact ⟨counts _, nofun⟩
  · rw [Act.outcome_bind_ok handed]
    rw [inHub, Act.outcome_view] at handed
    obtain ⟨-, rfl⟩ := Prod.mk.inj handed
    have same : (s.jobs ++ [(jobName (s.started + 1), Job.new)]).lookup (jobName n) =
        s.jobs.lookup (jobName n) := by
      rw [List.lookup_append, lookup_cons_ite, if_neg other, List.lookup_nil, Option.or_none]
    refine ⟨⟨Nat.le_succ _, same, congrArg (Option.or · _) same⟩, ?_⟩
    rintro _ _ ⟨⟩
    exact other

theorem order_eq (o : BatchOrder) : (Ask.order o).work.run =
    .act (fun s => ((startJob View.whole o).outcome s).2) fun s =>
      match ((startJob View.whole o).outcome s).1 with
      | .ok (id, _) => working id o
      | .error f => .done (.error f) := by
  show Routine.act _ _ = _
  congr 1
  funext s
  show Routine.bind (.done ((startJob View.whole o).outcome s).1) _ = _
  rcases outcome_startJob o s with ⟨id, t, came, -⟩ | ⟨f, t, came, -⟩ <;> rw [came] <;> rfl

/-- Another job is ordered and goes on. -/
theorem elsewhere_order (o : BatchOrder) : Elsewhere n (Ask.order o).work.run := by
  rw [order_eq]
  intro s counted
  obtain ⟨keeps, named⟩ := startJob_keepsJob o counted
  refine ⟨keeps, ?_⟩
  dsimp only
  rcases came : ((startJob View.whole o).outcome s).1 with f | ⟨id, r⟩
  · trivial
  · exact elsewhere_working (named id r came) o

end

/-! ## How far the job has come -/

/-- How far the work of the job `id` for the order `o` has come, by what is left of it, and that `s`
shows of the job what the work has come to. -/
inductive Worker (id : String) (o : BatchOrder) (s : Service) : Call → Prop where
  | works {r : Routine Service Outcome} {x : List (String × Progress)} (same : r.Within Same)
    (owned : r.Owned (shown id) (Hub.Answers noteOn o.tools (some [])) (some x))
    (there : s.job? id = some ⟨x, none⟩) : Worker id o s (r.bind (ending id))
  | ended {x : List (String × Progress)} {e : Outcome}
    (answers : Hub.Answers noteOn o.tools (some []) e (some x))
    (held : s.held? id = some ⟨x, some e⟩) : Worker id o s (.done (.ok none))

section
variable {id : String} {o : BatchOrder} {s s' : Service} {r : Call}

theorem Worker.left (w : Worker id o s r) (leaves : Leaves id s s') : Worker id o s' r := by
  cases w with
  | works same owned there => exact .works same owned ((leaves.on _ there).trans there)
  | ended answers held => exact .ended answers (leaves.held.trans held)

theorem Worker.first (fresh : s.job? id = some .new) : Worker id o s (working id o) := by
  rw [working_eq]
  exact .works (batch_same id o) (batch_owned id o (some [])) fresh

theorem Worker.held (w : Worker id o s r) : ∃ x e, s.held? id = some ⟨x, e⟩ := by
  cases w with
  | works same owned there => exact ⟨_, _, held_of_job there⟩
  | ended answers held => exact ⟨_, _, held⟩

/-- Work that is over has ended its job. -/
theorem Worker.past {e : Except Fault (Option Reply)} (w : Worker id o s (.done e)) :
    ∃ x e, s.held? id = some ⟨x, some e⟩ := by
  generalize whole : Routine.done e = r at w
  cases w with
  | ended answers held => exact ⟨_, _, held⟩
  | @works r x same owned there => cases r <;> cases whole

/-- A job ends with what its own batch comes to, and then its work is over. -/
theorem Worker.of_ended {x : List (String × Progress)} {e : Outcome} (w : Worker id o s r)
    (ended : s.held? id = some ⟨x, some e⟩) :
    r = .done (.ok none) ∧ Hub.Answers noteOn o.tools (some []) e (some x) := by
  cases w with
  | works same owned there =>
    rw [held_of_job there] at ended
    cases ended
  | ended answers held =>
    rw [held] at ended
    cases ended
    exact ⟨rfl, answers⟩

/-- A step of the work: the job goes on, or it ends. -/
theorem Worker.step {step : Service → Service} {next : Service → Call}
    (w : Worker id o s (.act step next)) :
    (∃ x, s.job? id = some ⟨x, none⟩) ∧ (step s).started = s.started ∧
      Worker id o (step s) (next s) := by
  generalize whole : Routine.act step next = r at w
  cases w with
  | ended => cases whole
  | @works r x same owned there =>
    refine ⟨⟨x, there⟩, ?_⟩
    cases r with
    | wait r => cases whole
    | done e =>
      cases whole
      have job : ((finishJob id e).outcome s).2.job? id = some ⟨x, some e⟩ := by
        show (changeJob _ id s.jobs).lookup id = _
        rw [lookup_changeJob, if_pos rfl, show s.jobs.lookup id = _ from there]
        rfl
      exact ⟨rfl, .ended owned (held_of_job job)⟩
    | act step next =>
      cases whole
      have kept := same.1 s
      have entry : (step s).entry id = some none := by
        rw [kept.entry, entry, there]
        rfl
      obtain ⟨⟨x', e⟩, job, ended⟩ := Option.map_eq_some_iff.mp entry
      cases ended
      have goes := owned s (by rw [shown, there]; rfl)
      rw [shown, job] at goes
      exact ⟨kept.started, .works (same.2 s) goes job⟩

theorem Worker.wait {next : Call} (w : Worker id o s (.wait next)) : Worker id o s next := by
  generalize whole : Routine.wait next = r at w
  cases w with
  | ended => cases whole
  | @works r x same owned there =>
    cases r with
    | done e => cases whole
    | act step next => cases whole
    | wait r =>
      cases whole
      exact .works same owned there

end

/-! ## How far a poll has come -/

/-- A member of a document. -/
def member? (name : String) : Json → Option Json
  | .obj fs => fs.lookup name
  | _ => none

/-- Whether a reply tells of a job that it is done. -/
def SaysDone : Reply → Prop
  | .document d => member? "status" d = some (.str "done")
  | _ => False

/-- A poll at the place `i` of a pool copied `progress` at `q₁` and saw at `q₂` that the job with the
number `n` had ended with `as`, when its progress was `final`. All of this comes after `p₀`. -/
structure SawEnd (n : Nat) (p₀ : Pool Service Call) (i : Nat)
    (progress final : List (String × Progress)) (as : List Analysis) (q₁ q₂ : Pool Service Call) :
    Prop where
  before : HappensBeside n p₀ q₁
  copies : ∃ j, q₁.calls[i]? = some (copying (jobName n) j)
  copied : ∃ e, q₁.state.held? (jobName n) = some ⟨progress, e⟩
  between : HappensBeside n q₁ q₂
  sees : q₂.calls[i]? = some (seeing (jobName n) progress)
  ended : q₂.state.held? (jobName n) = some ⟨final, some (.ok as)⟩
  past : q₂.calls[0]? = some (.done (.ok none))
  /-- Nothing is missing in a copy that was made when the work was over. -/
  settled : q₁.calls[0]? = some (.done (.ok none)) → progress = final

/-- What is behind `reply` if it tells of the job with the number `n` that it is done: the poll at the
place `i` saw so between `p₀` and `q`, and `as` and `final` are what the batch of the order `o` came
to. -/
structure DoneBacked (n : Nat) (o : BatchOrder) (p₀ : Pool Service Call) (i : Nat)
    (q : Pool Service Call) (progress final : List (String × Progress)) (as : List Analysis)
    (reply : Reply) : Prop where
  tells : ∃ docs, analysesJson as = .ok docs ∧
    reply = .document (jobJson (jobName n) "done" progress docs .null)
  saw : ∃ q₁ q₂, SawEnd n p₀ i progress final as q₁ q₂ ∧ HappensBeside n q₂ q
  answers : Hub.Answers noteOn o.tools (some []) (.ok as) (some final)

/-- A poll at the place `i` copied `progress` at `q₁`, after `p₀`, and at `q` it has still to see whether
the job with the number `n` has ended. -/
structure Copied (n : Nat) (p₀ : Pool Service Call) (i : Nat) (progress : List (String × Progress))
    (q₁ q : Pool Service Call) : Prop where
  before : HappensBeside n p₀ q₁
  copies : ∃ j, q₁.calls[i]? = some (copying (jobName n) j)
  copied : ∃ e, q₁.state.held? (jobName n) = some ⟨progress, e⟩
  between : HappensBeside n q₁ q
  settled : q₁.calls[0]? = some (.done (.ok none)) →
    ∃ e, q.state.held? (jobName n) = some ⟨progress, some e⟩

/-- How far a poll at the place `i` of `q` has come since `p₀`, by what is left of it. It is a poll of
the job with the number `n`, that was taken on for the order `o`. -/
inductive Stage (n : Nat) (o : BatchOrder) (p₀ : Pool Service Call) (i : Nat) (q : Pool Service Call) :
    Call → Prop where
  | asks : Stage n o p₀ i q (polling (jobName n))
  | copies (j : Job) : Stage n o p₀ i q (copying (jobName n) j)
  | sees {progress : List (String × Progress)} {q₁ : Pool Service Call}
    (copied : Copied n p₀ i progress q₁ q) : Stage n o p₀ i q (seeing (jobName n) progress)
  | drops {reply : Reply} (ended : ∃ x e, q.state.held? (jobName n) = some ⟨x, some e⟩)
    (backed : SaysDone reply → ∃ progress final as, DoneBacked n o p₀ i q progress final as reply) :
    Stage n o p₀ i q (dropping (jobName n) reply)
  | told {e : Except Fault (Option Reply)}
    (backed : ∀ reply, e = .ok (some reply) → SaysDone reply → q.state.job? (jobName n) = none ∧
      ∃ progress final as, DoneBacked n o p₀ i q progress final as reply) : Stage n o p₀ i q (.done e)

section
variable {n i : Nat} {o : BatchOrder} {p₀ q q' : Pool Service Call} {r : Call} {reply : Reply}

theorem DoneBacked.later {progress final : List (String × Progress)} {as : List Analysis}
    (backed : DoneBacked n o p₀ i q progress final as reply) (goes : HappensBeside n q q') :
    DoneBacked n o p₀ i q' progress final as reply := by
  obtain ⟨q₁, q₂, saw, since⟩ := backed.saw
  exact ⟨backed.tells, ⟨q₁, q₂, saw, since.trans goes⟩, backed.answers⟩

/-- A step leaves a poll where it is that has copied, if the progress of a job that has ended stays as
it is. -/
theorem Copied.later {progress : List (String × Progress)} {q₁ : Pool Service Call}
    (copied : Copied n p₀ i progress q₁ q) (goes : HappensBeside n q q')
    (stays : ∀ e, q.state.held? (jobName n) = some ⟨progress, some e⟩ →
      q'.state.held? (jobName n) = some ⟨progress, some e⟩) : Copied n p₀ i progress q₁ q' where
  before := copied.before
  copies := copied.copies
  copied := copied.copied
  between := copied.between.trans goes
  settled past := (copied.settled past).imp stays

/-- A step that leaves the job leaves a poll where it is. -/
theorem Stage.left (stage : Stage n o p₀ i q r) (goes : HappensBeside n q q')
    (leaves : Leaves (jobName n) q.state q'.state) : Stage n o p₀ i q' r := by
  cases stage with
  | asks => exact .asks
  | copies j => exact .copies j
  | sees copied => exact .sees (copied.later goes fun e ended => leaves.held.trans ended)
  | drops ended backed =>
    refine .drops (leaves.held ▸ ended) fun done => ?_
    obtain ⟨progress, final, as, backed⟩ := backed done
    exact ⟨progress, final, as, backed.later goes⟩
  | told backed =>
    refine .told fun reply is done => ?_
    obtain ⟨gone, progress, final, as, backed⟩ := backed reply is done
    exact ⟨leaves.gone gone, progress, final, as, backed.later goes⟩

/-- While the job goes on, a poll of it has not told of its end. -/
theorem Stage.works (stage : Stage n o p₀ i q r) (goes : HappensBeside n q q')
    {x : List (String × Progress)} (on : q.state.job? (jobName n) = some ⟨x, none⟩) :
    Stage n o p₀ i q' r := by
  have held := held_of_job on
  cases stage with
  | asks => exact .asks
  | copies j => exact .copies j
  | sees copied =>
    refine .sees (copied.later goes fun e ended => ?_)
    rw [held] at ended
    cases ended
  | drops ended backed =>
    obtain ⟨x', e, ended⟩ := ended
    rw [held] at ended
    cases ended
  | told backed =>
    refine .told fun reply is done => ?_
    obtain ⟨gone, -⟩ := backed reply is done
    rw [on] at gone
    cases gone

theorem Stage.no_wait {next : Call} (stage : Stage n o p₀ i q (.wait next)) : False := by
  generalize whole : Routine.wait next = r at stage
  cases stage with
  | asks =>
    rw [polling_eq] at whole
    cases whole
  | copies j => cases whole
  | sees copied =>
    rw [seeing_eq] at whole
    cases whole
  | drops _ _ => cases whole
  | told _ => cases whole

theorem not_saysDone {id status : String} {progress : List (String × Progress)} {results error : Json}
    (other : status ≠ "done") :
    ¬ SaysDone (.document (jobJson id status progress results error)) := by
  intro done
  exact other (Json.str.inj (Option.some.inj done))

theorem Stage.done (stage : Stage n o p₀ i q (.done (.ok (some reply)))) (done : SaysDone reply) :
    q.state.job? (jobName n) = none ∧
      ∃ progress final as, DoneBacked n o p₀ i q progress final as reply := by
  generalize whole : Routine.done _ = r at stage
  cases stage with
  | asks =>
    rw [polling_eq] at whole
    cases whole
  | copies j => cases whole
  | sees copied =>
    rw [seeing_eq] at whole
    cases whole
  | drops _ _ => cases whole
  | told backed =>
    cases whole
    exact backed reply rfl done

/-! ### The sections of a poll -/

/-- A poll that looks for the job finds it, or is refused. -/
theorem Stage.looked (s : Service) : Stage n o p₀ i q (looked (jobName n) s) := by
  unfold Polls.looked
  cases s.job? (jobName n) with
  | none =>
    refine .told ?_
    rintro _ ⟨⟩ ⟨⟩
  | some j => exact .copies j

/-- Once the work is over, what is copied is the progress of the end. -/
theorem Stage.copied {j : Job} (there : q.calls[i]? = some (copying (jobName n) j))
    (reached : HappensBeside n p₀ q) (first : q.calls[0]? = some r)
    (worker : Worker (jobName n) o q.state r) (goes : HappensBeside n q q')
    (same : q'.state = q.state) :
    Stage n o p₀ i q' (seeing (jobName n) ((q.state.held? (jobName n)).getD j).progress) := by
  obtain ⟨x, e, held⟩ := worker.held
  rw [held]
  refine .sees ⟨reached, ⟨j, there⟩, ⟨e, held⟩, goes, fun past => ?_⟩
  cases first.symm.trans past
  obtain ⟨x', e', ended⟩ := worker.past
  cases held.symm.trans ended
  exact ⟨e', by rw [same, held]; rfl⟩

/-- What a poll saw that finds that the job has ended. -/
theorem Copied.sawEnd {progress final : List (String × Progress)} {as : List Analysis}
    {q₁ : Pool Service Call} (copied : Copied n p₀ i progress q₁ q)
    (sees : q.calls[i]? = some (seeing (jobName n) progress))
    (ended : q.state.held? (jobName n) = some ⟨final, some (.ok as)⟩)
    (past : q.calls[0]? = some (.done (.ok none))) :
    SawEnd n p₀ i progress final as q₁ q where
  before := copied.before
  copies := copied.copies
  copied := copied.copied
  between := copied.between
  sees := sees
  ended := ended
  past := past
  settled early := by
    obtain ⟨e, still⟩ := copied.settled early
    cases still.symm.trans ended
    rfl

/-- A poll that has copied the progress sees whether the job has ended, and with what. -/
theorem Copied.seen {progress : List (String × Progress)} {q₁ : Pool Service Call}
    (copied : Copied n p₀ i progress q₁ q) (there : q.calls[i]? = some (seeing (jobName n) progress))
    (first : q.calls[0]? = some r) (worker : Worker (jobName n) o q.state r)
    (goes : HappensBeside n q q') (same : q'.state = q.state) :
    Stage n o p₀ i q' (seen (jobName n) progress q.state) := by
  unfold Polls.seen
  cases saw : q.state.held? (jobName n) >>= Job.outcome with
  | none =>
    refine .told fun reply is done => ?_
    cases is
    exact (not_saysDone (by decide) done).elim
  | some e =>
    obtain ⟨⟨final, e'⟩, held, ended⟩ := Option.bind_eq_some_iff.mp saw
    cases ended
    have still : ∃ x e, q'.state.held? (jobName n) = some ⟨x, some e⟩ := ⟨final, e, same ▸ held⟩
    cases e with
    | error f => exact .drops still fun done => (not_saysDone (by decide) done).elim
    | ok as =>
      dsimp only
      cases told : analysesJson as with
      | error f => exact .told fun reply is => nomatch is
      | ok docs =>
        obtain ⟨rfl, answers⟩ := worker.of_ended held
        exact .drops still fun _ => ⟨progress, final, as, ⟨docs, told, rfl⟩,
          ⟨q₁, q, copied.sawEnd there held first, goes⟩, answers⟩

/-- A poll that has dropped the job tells its reply, with what is behind that. -/
theorem Stage.dropped (backed : SaysDone reply →
      ∃ progress final as, DoneBacked n o p₀ i q progress final as reply)
    (goes : HappensBeside n q q') (gone : q'.state.job? (jobName n) = none) :
    Stage n o p₀ i q' (.done (.ok (some reply))) := by
  refine .told ?_
  rintro _ ⟨⟩ done
  obtain ⟨progress, final, as, backed⟩ := backed done
  exact ⟨gone, progress, final, as, backed.later goes⟩

/-- A section of a poll. -/
theorem Stage.step {s : Service} {rs : List Call} {step : Service → Service} {next : Service → Call}
    (stage : Stage n o p₀ i ⟨s, rs⟩ (.act step next)) (there : rs[i]? = some (.act step next))
    (reached : HappensBeside n p₀ ⟨s, rs⟩) (first : rs[0]? = some r)
    (worker : Worker (jobName n) o s r) :
    Leaves (jobName n) s (step s) ∧ Stage n o p₀ i ⟨step s, rs.set i (next s)⟩ (next s) := by
  have goes : HappensBeside n ⟨s, rs⟩ ⟨step s, rs.set i (next s)⟩ := .act .none there
  generalize whole : Routine.act step next = r' at stage
  cases stage with
  | asks =>
    rw [polling_eq] at whole
    cases whole
    exact ⟨.refl, .looked s⟩
  | copies j =>
    cases whole
    exact ⟨.refl, .copied (q := ⟨s, rs⟩) there reached first worker goes rfl⟩
  | @sees progress q₁ copied =>
    rw [seeing_eq] at whole
    cases whole
    rw [← seeing_eq] at there
    exact ⟨.refl, copied.seen (q := ⟨s, rs⟩) there first worker goes rfl⟩
  | drops ended backed =>
    cases whole
    obtain ⟨x, e, held⟩ := ended
    exact ⟨dropJob_leaves held, .dropped backed goes job_dropJob⟩
  | told backed => cases whole

end

end Polls

end LintHub.Http.Service
