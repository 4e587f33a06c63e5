import LintHub.Proofs.Batch.Frame
import LintHub.Proofs.Http.Jobs

/-! # Outcomes are handed out once

Where a job stands is said by what was told of it: its name was never issued, it goes on, it has ended
and nobody has asked since, or somebody has. The table shows just that of every name, whatever else
goes on, and every poll is answered by it.
-/

namespace LintHub.Http.Service.Jobs

/-! ## Where a job stands -/

inductive Standing where
  | unknown
  | running
  | finished (e : Outcome)
  | handedOut

/-- What the table has to show. -/
def Standing.entry : Standing → Option (Option Outcome)
  | unknown => none
  | running => some none
  | finished e => some (some e)
  | handedOut => none

/-- Where the job of a name stands after what was told. -/
inductive Stands (id : String) (es : List (Nat × Event)) : Standing → Prop where
  | unknown (never : ∀ i o, (i, .issued id o) ∉ es) : Stands id es .unknown
  | running {i : Nat} {o : BatchOrder} (issued : (i, .issued id o) ∈ es)
    (on : ∀ j e, (j, .ended id e) ∉ es) : Stands id es .running
  /-- Nobody has asked since it ended, unless there is no document of its outcome. -/
  | finished {before after : List (Nat × Event)} {i : Nat} {e : Outcome}
    (ended : es = before ++ (i, .ended id e) :: after)
    (kept : Writable e → ∀ j answer, (j, .polled id answer) ∉ after) : Stands id es (.finished e)
  | handedOut {before after : List (Nat × Event)} {i j : Nat} {e : Outcome}
    {answer : Except Fault Reply} (ended : es = before ++ (i, .ended id e) :: after)
    (writable : Writable e) (polled : (j, .polled id answer) ∈ after) : Stands id es .handedOut

theorem stands_total (id : String) (es : List (Nat × Event)) : ∃ st, Stands id es st := by
  by_cases ends : ∃ i e, (i, .ended id e) ∈ es
  · obtain ⟨i, e, ended⟩ := ends
    obtain ⟨before, after, split⟩ := List.append_of_mem ended
    by_cases told : Writable e ∧ ∃ j answer, (j, .polled id answer) ∈ after
    · obtain ⟨writable, j, answer, polled⟩ := told
      exact ⟨_, .handedOut split writable polled⟩
    · exact ⟨_, .finished split fun writable j answer polled => told ⟨writable, j, answer, polled⟩⟩
  · have on : ∀ j e, (j, Event.ended id e) ∉ es := fun j e ended => ends ⟨j, e, ended⟩
    by_cases known : ∃ i o, (i, .issued id o) ∈ es
    · obtain ⟨i, o, issued⟩ := known
      exact ⟨_, .running issued on⟩
    · exact ⟨_, .unknown fun i o issued => known ⟨i, o, issued⟩⟩

section
variable {es : List (Nat × Event)} {i : Nat} {e : Event}

/-- What was told last, or earlier. -/
theorem mem_concat {x : Nat × Event} (told : x ∈ es ++ [(i, e)]) : x ∈ es ∨ x = (i, e) := by
  rcases List.mem_append.mp told with old | new
  · exact .inl old
  · exact .inr (List.mem_singleton.mp new)

/-- Names are issued before they are used, and jobs end once. -/
structure Orderly (es : List (Nat × Event)) (e : Event) : Prop where
  issues : ∀ id o, e = .issued id o → ∀ j x, (j, .issued id x) ∉ es
  ends : ∀ id x, e = .ended id x → (∃ j o, (j, .issued id o) ∈ es) ∧ ∀ j y, (j, .ended id y) ∉ es
  known : ∀ j id x, (j, .ended id x) ∈ es → ∃ j o, (j, .issued id o) ∈ es

theorem onEntry_none {id : String} (foreign : ∀ o, e ≠ .issued id o) : e.onEntry id none = none := by
  cases e with
  | issued n o =>
    have other : id ≠ n := fun same => foreign o (by rw [same])
    rw [Event.onEntry, if_neg other]
    rfl
  | ended n x =>
    rw [Event.onEntry]
    split <;> rfl
  | polled n answer =>
    rw [Event.onEntry]
    split <;> rfl
  | _ => rfl

theorem onEntry_running {id : String} (on : ∀ x, e ≠ .ended id x) :
    e.onEntry id (some none) = some none := by
  cases e with
  | ended n x =>
    have other : id ≠ n := fun same => on x (by rw [same])
    rw [Event.onEntry, if_neg other]
  | polled n answer =>
    rw [Event.onEntry]
    split <;> rfl
  | _ => rfl

theorem onEntry_finished {id : String} {x : Outcome} (once : ∀ y, e ≠ .ended id y)
    (kept : Writable x → ∀ answer, e ≠ .polled id answer) :
    e.onEntry id (some (some x)) = some (some x) := by
  cases e with
  | ended n y =>
    have other : id ≠ n := fun same => once y (by rw [same])
    rw [Event.onEntry, if_neg other]
  | polled n answer =>
    rw [Event.onEntry]
    split
    · next same =>
      refine afterPoll_of_not_writable fun writable => kept writable answer ?_
      rw [same]
    · rfl
  | _ => rfl

/-- Whatever is told moves a job from where it stood to where it stands, and its entry with it. -/
theorem Stands.step {id : String} {st : Standing} (orderly : Orderly es e)
    (now : Stands id (es ++ [(i, e)]) st) :
    ∃ st', Stands id es st' ∧ e.onEntry id st'.entry = st.entry := by
  cases now with
  | unknown never =>
    refine ⟨_, .unknown fun j o old => never j o (List.mem_append_left _ old), ?_⟩
    exact onEntry_none fun o new => never i o (by rw [new]; exact List.mem_concat_self)
  | @running j o issued on =>
    have still : ∀ k x, (k, Event.ended id x) ∉ es :=
      fun k x old => on k x (List.mem_append_left _ old)
    rcases mem_concat issued with old | new
    · refine ⟨_, .running old still, ?_⟩
      exact onEntry_running fun x new => on i x (by rw [new]; exact List.mem_concat_self)
    · cases new
      refine ⟨_, .unknown (orderly.issues id o rfl), ?_⟩
      rw [Event.onEntry, if_pos rfl]
      rfl
  | @finished before after j x ended kept =>
    rcases split_concat ended with ⟨rfl, rfl, new⟩ | ⟨after, rfl, rfl⟩
    · cases new
      obtain ⟨⟨k, o, issued⟩, on⟩ := orderly.ends id x rfl
      refine ⟨_, .running issued on, ?_⟩
      rw [Event.onEntry, if_pos rfl]
      rfl
    · refine ⟨_, .finished rfl fun writable k answer old =>
        kept writable k answer (List.mem_append_left _ old), ?_⟩
      refine onEntry_finished (fun y new => ?_) fun writable answer new => ?_
      · exact (orderly.ends id y new).2 j x (List.mem_append_right _ (List.mem_cons_self ..))
      · exact kept writable i answer (by rw [new]; exact List.mem_concat_self)
  | @handedOut before after j k x answer ended writable polled =>
    rcases split_concat ended with ⟨rfl, -, -⟩ | ⟨after, rfl, rfl⟩
    · cases polled
    · by_cases asked : ∃ k answer, (k, Event.polled id answer) ∈ after
      · obtain ⟨k, answer, old⟩ := asked
        refine ⟨_, .handedOut rfl writable old, onEntry_none fun o new => ?_⟩
        obtain ⟨k, o', issued⟩ :=
          orderly.known j id x (List.mem_append_right _ (List.mem_cons_self ..))
        exact orderly.issues id o new k o' issued
      · rcases mem_concat polled with old | new
        · exact absurd ⟨k, answer, old⟩ asked
        · cases new
          refine ⟨_, .finished rfl fun _ k answer old => asked ⟨k, answer, old⟩, ?_⟩
          rw [Event.onEntry, if_pos rfl]
          exact afterPoll_of_writable writable

end

/-! ## What the table shows at any time -/

/-- How far the call `i` has come. -/
abbrev partOf (i : Nat) (es : List (Nat × Event)) : Part :=
  modeAfter Part.next .fresh i es

section
variable {p : Part} {s : Service} {e : Event} {id : String}

theorem May.name {o : BatchOrder} (may : May p s (.issued id o)) :
    p = .fresh ∧ id = jobName (s.started + 1) := by
  cases may with
  | issues _ name => exact ⟨rfl, name⟩

theorem May.own {x : Outcome} (may : May p s (.ended id x)) :
    ∃ o, p = .working id o ∧ Routine.Yields x (batch id o).run := by
  cases may with
  | ends _ own => exact ⟨_, rfl, own⟩

theorem May.tells {answer : Except Fault Reply} (may : May p s (.polled id answer)) :
    p = .fresh ∧ Tells id (s.entry id) answer := by
  cases may with
  | polls tells => exact ⟨rfl, tells⟩

theorem May.not_answered {answer : Except Fault Reply} : ¬ May (.answered answer) s e := by
  intro may
  cases may with
  | other _ who => rcases who with bad | bad <;> cases bad

theorem May.working {o : BatchOrder} (may : May p s e) (on : p.next e = .working id o) :
    (p = .working id o ∧ ∀ n x, e ≠ .ended n x) ∨ e = .issued id o := by
  cases may with
  | issues o' _ =>
    cases on
    exact .inr rfl
  | works id' o' _ =>
    cases on
    exact .inl ⟨rfl, fun _ _ => Event.noConfusion⟩
  | other _ who => rcases who with rfl | rfl <;> cases on
  | _ => cases on

/-- A job that goes on still goes on, unless it ends. -/
theorem May.next_working {o : BatchOrder} (may : May (.working id o) s e) :
    Part.next (.working id o) e = .working id o ∨ ∃ x, e = .ended id x := by
  cases may with
  | works => exact .inl rfl
  | ends _ own => exact .inr ⟨_, rfl⟩
  | other _ who => rcases who with bad | bad <;> cases bad

end

/-- What the service shows after what was told. -/
structure Current (es : List (Nat × Event)) (s : Service) : Prop where
  kept : ∀ id st, Stands id es st → s.entry id = st.entry
  /-- Names are numbers that were counted. -/
  named : ∀ i id o, (i, .issued id o) ∈ es → ∃ n, n ≤ s.started ∧ id = jobName n
  alone : ∀ i j id o o', (i, .issued id o) ∈ es → (j, .issued id o') ∈ es → i = j ∧ o = o'
  works : ∀ i id o, partOf i es = .working id o →
    (i, .issued id o) ∈ es ∧ ∀ j x, (j, .ended id x) ∉ es
  ended : ∀ i id x, (i, .ended id x) ∈ es → ∃ o, (i, .issued id o) ∈ es
  goes : ∀ i id o, (i, .issued id o) ∈ es →
    partOf i es = .working id o ∨ ∃ x, (i, .ended id x) ∈ es
  answered : ∀ i id answer, (i, .polled id answer) ∈ es → partOf i es = .answered answer

theorem Current.first (h : Hub) : Current [] (.new h) where
  kept id st stands := by
    cases stands with
    | unknown _ => rfl
    | running issued _ => cases issued
    | finished ended _ => simp at ended
    | handedOut ended _ _ => simp at ended
  named := by simp
  alone := by simp
  works i id o working := by cases working
  ended := by simp
  goes := by simp
  answered := by simp

section
variable {es : List (Nat × Event)} {s s' : Service} {i : Nat} {e : Event}

theorem partOf_self : partOf i (es ++ [(i, e)]) = (partOf i es).next e :=
  modeAfter_self ..

theorem partOf_ne {j : Nat} (other : i ≠ j) : partOf j (es ++ [(i, e)]) = partOf j es :=
  modeAfter_ne _ _ other ..

section
variable (h : Current es s) (may : May (partOf i es) s e)
include h may

theorem Current.orderly : Orderly es e where
  issues id o told j x old := by
    subst told
    obtain ⟨n, most, named⟩ := h.named j id x old
    have same : s.started + 1 = n := Text.hexText_injective 32 (may.name.2.symm.trans named)
    omega
  ends id x told := by
    subst told
    obtain ⟨o, part, -⟩ := may.own
    obtain ⟨issued, on⟩ := h.works i id o part
    exact ⟨⟨i, o, issued⟩, on⟩
  known j id x old := by
    obtain ⟨o, issued⟩ := h.ended j id x old
    exact ⟨j, o, issued⟩

theorem Current.alone_step {j k : Nat} {id : String} {o o' : BatchOrder}
    (first : (j, .issued id o) ∈ es ++ [(i, e)]) (second : (k, .issued id o') ∈ es ++ [(i, e)]) :
    j = k ∧ o = o' := by
  have fresh := (h.orderly may).issues
  rcases mem_concat first with old | new <;> rcases mem_concat second with old' | new'
  · exact h.alone j k id o o' old old'
  · cases new'
    exact absurd old (fresh id o' rfl j o)
  · cases new
    exact absurd old' (fresh id o rfl k o')
  · cases new
    cases new'
    exact ⟨rfl, rfl⟩

/-- A job that goes on was issued to its own call, and no call has ended it. -/
theorem Current.works_step {j : Nat} {id : String} {o : BatchOrder}
    (on : partOf j (es ++ [(i, e)]) = .working id o) :
    (j, .issued id o) ∈ es ++ [(i, e)] ∧ ∀ k x, (k, .ended id x) ∉ es ++ [(i, e)] := by
  by_cases own : i = j
  · subst own
    rw [partOf_self] at on
    rcases may.working on with ⟨before, stays⟩ | rfl
    · obtain ⟨issued, still⟩ := h.works i id o before
      refine ⟨List.mem_append_left _ issued, fun k x told => ?_⟩
      rcases mem_concat told with old | new
      · exact still k x old
      · cases new
        exact stays id x rfl
    · refine ⟨List.mem_concat_self, fun k x told => ?_⟩
      rcases mem_concat told with old | new
      · obtain ⟨o', issued⟩ := h.ended k id x old
        exact (h.orderly may).issues id o rfl k o' issued
      · cases new
  · rw [partOf_ne own] at on
    obtain ⟨issued, still⟩ := h.works j id o on
    refine ⟨List.mem_append_left _ issued, fun k x told => ?_⟩
    rcases mem_concat told with old | new
    · exact still k x old
    · cases new
      obtain ⟨o', part, -⟩ := may.own
      exact own (h.alone i j id o' o (h.works i id o' part).1 issued).1

theorem Current.goes_step {j : Nat} {id : String} {o : BatchOrder}
    (issued : (j, .issued id o) ∈ es ++ [(i, e)]) :
    partOf j (es ++ [(i, e)]) = .working id o ∨ ∃ x, (j, .ended id x) ∈ es ++ [(i, e)] := by
  rcases mem_concat issued with old | new
  · rcases h.goes j id o old with on | ⟨x, ended⟩
    · by_cases own : i = j
      · subst own
        rw [on] at may
        rw [partOf_self, on]
        rcases may.next_working with stays | ⟨x, rfl⟩
        · exact .inl stays
        · exact .inr ⟨x, List.mem_concat_self⟩
      · rw [partOf_ne own]
        exact .inl on
    · exact .inr ⟨x, List.mem_append_left _ ended⟩
  · cases new
    rw [partOf_self, may.name.1]
    exact .inl rfl

theorem Current.answered_step {j : Nat} {id : String} {answer : Except Fault Reply}
    (polled : (j, .polled id answer) ∈ es ++ [(i, e)]) :
    partOf j (es ++ [(i, e)]) = .answered answer := by
  rcases mem_concat polled with old | new
  · have before := h.answered j id answer old
    by_cases own : i = j
    · subst own
      rw [before] at may
      exact absurd may May.not_answered
    · rw [partOf_ne own, before]
  · cases new
    rw [partOf_self, may.tells.1]
    rfl

end

/-- By cases on what is told: the table goes on to show where each job stands. -/
theorem Current.step (h : Current es s) (allows : Allows (partOf i es) s e s') :
    Current (es ++ [(i, e)]) s' := by
  have may := allows.may
  refine ⟨?_, ?_, fun _ _ _ _ _ => h.alone_step may, fun _ _ _ => h.works_step may, ?_,
    fun _ _ _ => h.goes_step may, fun _ _ _ => h.answered_step may⟩
  · intro id st now
    obtain ⟨st', before, entry⟩ := now.step (h.orderly may)
    rw [allows.moves.entry, h.kept id st' before, entry]
  · intro j id o told
    have counted := allows.moves.started
    rcases mem_concat told with old | new
    · obtain ⟨n, most, name⟩ := h.named j id o old
      exact ⟨n, by omega, name⟩
    · cases new
      exact ⟨s.started + 1, Nat.le_of_eq counted.symm, may.name.2⟩
  · intro j id x told
    rcases mem_concat told with old | new
    · obtain ⟨o, issued⟩ := h.ended j id x old
      exact ⟨o, List.mem_append_left _ issued⟩
    · cases new
      obtain ⟨o, part, -⟩ := may.own
      exact ⟨o, List.mem_append_left _ (h.works i id o part).1⟩

end

/-! ## The law -/

/-- What is told of a job by where it stands. -/
abbrev Standing.Replies (st : Standing) (id : String) (answer : Except Fault Reply) : Prop :=
  Tells id st.entry answer

abbrev Comes (ok : Ask → Prop) (t : Trail Service Event (Except Fault (Option Reply))) : Prop :=
  ∃ a, ok a ∧ a.account.run = t

/-- What holds of everything that is told of jobs, in whatever order all of it is done. -/
structure JobLaw (es : List (Nat × Event))
    (q : Pool Service (Trail Service Event (Except Fault (Option Reply)))) : Prop where
  /-- Every name stands somewhere, and the table shows where. -/
  kept : ∀ id, ∃ st, Stands id es st ∧ ∀ st', Stands id es st' → q.state.entry id = st'.entry
  /-- Who asks is told where the job stands at that time, -/
  polls : ∀ before i id answer after, es = before ++ (i, .polled id answer) :: after →
    ∀ st, Stands id before st → st.Replies id answer
  /-- and this is what the request is answered with. -/
  told : ∀ i id answer e, (i, .polled id answer) ∈ es → q.calls[i]? = some (.done e) →
    e = answer.map some
  /-- A name is issued once. -/
  issued : ∀ before i id o after, es = before ++ (i, .issued id o) :: after →
    ∀ j o', (j, .issued id o') ∉ before
  /-- A job ends once, with what its own batch comes to, -/
  ends : ∀ before i id e after, es = before ++ (i, .ended id e) :: after →
    (∃ o, (i, .issued id o) ∈ before ∧ Routine.Yields e (batch id o).run) ∧
      ∀ j e', (j, .ended id e') ∉ before
  /-- and it has ended when its work is done. -/
  lasts : ∀ i id o e, (i, .issued id o) ∈ es → q.calls[i]? = some (.done e) →
    ∃ x, (i, .ended id x) ∈ es

section
variable {ok : Ask → Prop} {h₀ : Hub} {es : List (Nat × Event)}
variable {q : Pool Service (Trail Service Event (Except Fault (Option Reply)))}
variable (polite : ∀ a, ok a → a.Polite)
include polite

theorem comes_keeps (t : Trail Service Event (Except Fault (Option Reply))) (new : Comes ok t) :
    t.Leads (fun _ => True) Allows Part.next Done .fresh := by
  obtain ⟨a, ha, rfl⟩ := new
  exact Ask.account_keeps (polite a ha)

theorem current_of_steps (steps : Steps (Comes ok) ⟨.new h₀, []⟩ es q) : Current es q.state :=
  steps.history (comes_keeps polite) (fun _ _ _ _ _ _ => trivial) trivial (.first h₀)
    fun _ _ _ _ _ current allows => current.step allows

/-- What was told was allowed when it was told. -/
theorem told_allowed (steps : Steps (Comes ok) ⟨.new h₀, []⟩ es q)
    {before after : List (Nat × Event)} {i : Nat} {e : Event} (told : es = before ++ (i, e) :: after) :
    ∃ s, Current before s ∧ May (partOf i before) s e := by
  obtain ⟨q₁, q₂, first, -, allows⟩ :=
    steps.admits_of_leads (comes_keeps polite) (fun _ _ _ _ _ _ => trivial) trivial told
  exact ⟨_, current_of_steps polite first, allows.may⟩

theorem law_of_steps (steps : Steps (Comes ok) ⟨.new h₀, []⟩ es q) : JobLaw es q := by
  have current := current_of_steps polite steps
  have done : ∀ (i : Nat) (e : Except Fault (Option Reply)), q.calls[i]? = some (.done e) →
      Done (partOf i es) e := fun i _ =>
    (steps.leads (comes_keeps polite) (fun _ _ _ _ _ _ => trivial) trivial).2 i _
  refine ⟨?_, ?_, ?_, ?_, ?_, ?_⟩
  · intro id
    obtain ⟨st, stands⟩ := stands_total id es
    exact ⟨st, stands, fun st' => current.kept id st'⟩
  · intro before i id answer after told st stands
    obtain ⟨s, current, may⟩ := told_allowed polite steps told
    have tells := may.tells.2
    rw [current.kept id st stands] at tells
    exact tells
  · intro i id answer e polled returned
    exact (done i e returned).answered answer (current.answered i id answer polled)
  · intro before i id o after told j o'
    obtain ⟨s, current, may⟩ := told_allowed polite steps told
    exact (current.orderly may).issues id o rfl j o'
  · intro before i id e after told
    obtain ⟨s, current, may⟩ := told_allowed polite steps told
    obtain ⟨o, part, own⟩ := may.own
    exact ⟨⟨o, (current.works i id o part).1, own⟩, ((current.orderly may).ends id e rfl).2⟩
  · intro i id o e issued returned
    rcases current.goes i id o issued with on | ended
    · exact absurd on ((done i e returned).finished id o)
    · exact ended

/-- Whatever happens to a service is told by the accounts of its calls, and whatever these tell of it
obeys the law. -/
theorem polls_tell_where_jobs_stand
    {p : Pool Service (Routine Service (Except Fault (Option Reply)))}
    (happens : Happens (fun r => ∃ a, ok a ∧ a.work.run = r) ⟨.new h₀, []⟩ p) :
    (∃ es q, Steps (Comes ok) ⟨.new h₀, []⟩ es q ∧ q.erase = p) ∧
      ∀ es q, Steps (Comes ok) ⟨.new h₀, []⟩ es q → q.erase = p → JobLaw es q :=
  ⟨happens.accounted Ask.erase_account, fun _ _ steps _ => law_of_steps polite steps⟩

end

/-- A job of one tool, three polls of it and one of a name that was never issued. -/
def fiveAsks : List Ask :=
  [.order ⟨["alpha"], Hub.reportTo "", none⟩, .poll (jobName 1), .poll (jobName 1),
    .poll (jobName 1), .poll "beta"]

/-- The job is polled while it goes on and twice after its end. -/
def polledThrice :
    Pool Service (Trail Service Event (Except Fault (Option Reply))) × List (Nat × Event) :=
  Pool.play ⟨.new (Hub.holding (.bare .default) [Hub.quietTool "alpha"]),
    fiveAsks.map (·.account.run)⟩
    ([0, 0, 0, 1] ++ List.replicate 20 0 ++ [2, 3, 4])

/-- What a poll tells: a status code and, in a document, the status of the job. -/
def toldStatus : Event → Option (Nat × Json)
  | .polled _ (.ok (.document (.obj fs))) => some (200, (fs.lookup "status").getD .null)
  | .polled _ (.ok r) => some (r.status, .null)
  | _ => none

theorem polls_tell_where_jobs_stand_thrice : JobLaw polledThrice.2 polledThrice.1 ∧
    polledThrice.2.filterMap (fun e => (toldStatus e.2).map (e.1, ·)) =
      [(1, 200, .str "running"), (2, 200, .str "done"), (3, 404, .null), (4, 404, .null)] := by
  have polite : ∀ a ∈ fiveAsks, a.Polite := by
    intro a ha
    simp only [fiveAsks, List.mem_cons, List.not_mem_nil, or_false] at ha
    rcases ha with rfl | rfl | rfl | rfl | rfl <;> trivial
  have steps : Steps (Comes (· ∈ fiveAsks))
      ⟨.new (Hub.holding (.bare .default) [Hub.quietTool "alpha"]), []⟩ polledThrice.2
      polledThrice.1 := by
    refine Steps.playAll (fun t ht => ?_) _
    obtain ⟨a, ha, rfl⟩ := List.mem_map.mp ht
    exact ⟨a, ha, rfl⟩
  have told := (polls_tell_where_jobs_stand polite (steps.accounted Ask.erase_account)).2
  exact ⟨told _ _ steps rfl, by rfl⟩

end LintHub.Http.Service.Jobs
