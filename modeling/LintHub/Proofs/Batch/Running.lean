import LintHub.Proofs.Batch.Cancel
import LintHub.Proofs.Work.Account

/-! # Whether something runs

One flag says whether the hub counts as running. Every batch and every single run sets it when it
begins and takes it back when it ends, whatever else goes on. What calls tell here is which of their
steps do that; the law says what the flag is after them.
-/

namespace LintHub.Hub.Running

variable {α : Type}

/-- What a step does to the flag. -/
inductive Mark where
  | begins
  | ends
  | other
  deriving DecidableEq

structure Told where
  mark : Mark
  /-- Whether the hub counts as running after the step. -/
  flag : Bool
  deriving DecidableEq

/-- How far a call has come. -/
inductive Stage where
  | early
  | inside
  | past
  deriving DecidableEq

def Stage.next (s : Stage) (e : Told) : Stage :=
  match e.mark with
  | .begins => .inside
  | .ends => .past
  | .other => s

/-- The rule: a call begins once and ends once, and nothing else touches the flag. -/
inductive Allows : Stage → Hub → Told → Hub → Prop where
  | begins {h h' : Hub} (set : h'.running = true) : Allows .early h ⟨.begins, h'.running⟩ h'
  | ends {h h' : Hub} (cleared : h'.running = false) : Allows .inside h ⟨.ends, h'.running⟩ h'
  | other {s : Stage} {h h' : Hub} (same : h'.running = h.running) :
    Allows s h ⟨.other, h'.running⟩ h'

/-- Those who listen to a call leave the flag as it is. -/
def Same (h h' : Hub) : Prop :=
  h'.running = h.running

/-! ## Accounts -/

def telling (mark : Mark) (w : Work Hub α) : Account Hub Told α :=
  .of (fun _ h' => ⟨mark, h'.running⟩) w

/-- Work of the hub itself. -/
def quietly (m : Act Hub α) : Account Hub Told α :=
  telling .other (View.whole.work m)

def executeAccount (names : List String) (r : Request) (listener : Option (BatchListener Hub)) :
    Account Hub Told (List Analysis) := do
  telling .begins (View.whole.work (setRunning true))
  let result ← (telling .other (runNames View.whole r listener names)).attempt
  telling .ends (View.whole.work (setRunning false))
  Account.ofExcept result

def taskAccount (names : List String) (r : Request) (listener : Option (BatchListener Hub))
    (completion : Option (List Analysis → Work Hub Unit)) : Account Hub Told (List Analysis) := do
  let tell (as : List Analysis) : Account Hub Told Unit :=
    telling .other
      (match completion with
      | none => pure ()
      | some f => f as)
  let whole : Account Hub Told (List Analysis) := do
    quietly (checkNames names)
    executeAccount names r listener
  match ← whole.attempt with
  | .ok as =>
    tell as
    return as
  | .error f =>
    quietly (inWorld (report ⟨.error, .orchestrator, "Batch analysis failed", none, none, some f⟩))
    tell []
    throw f

def singleAccount (name : String) (r : Request) : Account Hub Told Analysis := do
  let i ← quietly (require name)
  if !(← quietly (isAvailable i)) then throw (.toolUnavailable name)
  else
    telling .begins (View.whole.work (setRunning true))
    quietly clearCancel
    quietly (say .info name s!"Running {name} ...")
    let result ← (telling .other (execute View.whole i r)).attempt
    telling .ends (View.whole.work (setRunning false))
    Account.ofExcept result

def batchAccount (names : List String) (r : Request) : Account Hub Told (List Analysis) := do
  quietly (checkNames names)
  quietly clearCancel
  executeAccount names r none

def account : Call → Account Hub Told Unit
  | .cancel => discard (quietly Hub.cancel)
  | .single name r => discard (singleAccount name r)
  | .batch names r => discard (batchAccount names r)
  | .background names r listener completion => do
    quietly submit
    discard (taskAccount names r listener completion)

@[simp] theorem erase_telling (mark : Mark) (w : Work Hub α) : (telling mark w).erase = w :=
  Account.erase_of _ w

@[simp] theorem erase_quietly (m : Act Hub α) : (quietly m).erase = View.whole.work m :=
  Account.erase_of _ _

@[simp] theorem erase_executeAccount (names : List String) (r : Request)
    (listener : Option (BatchListener Hub)) :
    (executeAccount names r listener).erase = executeBatch View.whole names r listener := by
  simp [executeAccount, executeBatch]

theorem erase_taskAccount (names : List String) (r : Request)
    (listener : Option (BatchListener Hub)) (completion : Option (List Analysis → Work Hub Unit)) :
    (taskAccount names r listener completion).erase =
      task View.whole names r listener completion := by
  unfold taskAccount task
  simp only [Account.erase_bind, Account.erase_attempt, erase_quietly, erase_executeAccount]
  congr 1
  funext e
  cases e <;> cases completion <;> simp

theorem erase_singleAccount (name : String) (r : Request) :
    (singleAccount name r).erase = runSingle View.whole name r := by
  unfold singleAccount runSingle
  simp only [Account.erase_bind, erase_quietly]
  congr 1
  funext i
  congr 1
  funext found
  cases found <;> simp

/-- Forgetting what is told, an account is the call itself. -/
theorem erase_account (c : Call) : (account c).erase = c.work := by
  cases c with
  | cancel => simp [account, Call.work]
  | single name r => simp [account, Call.work, erase_singleAccount]
  | batch names r => simp [account, Call.work, batchAccount, runBatch]
  | background names r listener completion => simp [account, Call.work, erase_taskAccount]

/-! ## Every call keeps to the rule -/

theorem Stage.outside {s : Stage} (early : s = .early) : s ≠ .inside := by
  rw [early]
  simp

/-- An account keeps to the rule, whatever the state is. -/
abbrev Keeps (post : Stage → Except Fault α → Prop) (s : Stage) (w : Account Hub Told α) : Prop :=
  w.run.Leads (fun _ => True) Allows Stage.next post s

theorem telling_keeps {w : Work Hub α} (hw : Work.Within Same w) (s : Stage) :
    Keeps (fun s' _ => s' = s) s (telling .other w) := by
  refine Account.leads_of (I := fun s' => s' = s) hw ?_ ?_ rfl
  · rintro s' h h' rfl -
    rfl
  · rintro s' h h' rfl - same
    exact .other same

theorem quietly_keeps {m : Act Hub α} (hm : Act.Within Same m) (s : Stage) :
    Keeps (fun s' _ => s' = s) s (quietly m) :=
  telling_keeps (.work fun h => hm h) s

/-- Work of the hub that never fails. -/
theorem surely_keeps {m : Act Hub α} (hm : ∀ h, ∃ a h', m.outcome h = (.ok a, h') ∧ Same h h')
    (s : Stage) : Keeps (fun s' e => ∃ a, e = .ok a ∧ s' = s) s (quietly m) := by
  show Keeps _ s (telling .other (View.whole.work m))
  refine Account.leads_step fun h _ => ?_
  obtain ⟨a, h', outcome, same⟩ := hm h
  exact ⟨_, h', outcome, .other same, a, rfl, rfl⟩

theorem begin_keeps : Keeps (fun s e => ∃ u, e = .ok u ∧ s = .inside) .early
    (telling .begins (View.whole.work (setRunning true))) :=
  Account.leads_step fun _ _ => ⟨_, _, rfl, .begins rfl, _, rfl, rfl⟩

/-- However it went, the call is over when this is done. -/
theorem end_keeps (e : Except Fault α) : Keeps (fun s _ => s = .past) .inside (do
    telling .ends (View.whole.work (setRunning false))
    Account.ofExcept e) := by
  have ended : Keeps (fun s _ => s = .past) .inside
      (telling .ends (View.whole.work (setRunning false))) :=
    Account.leads_step fun _ _ => ⟨_, _, rfl, .ends rfl, rfl⟩
  refine Account.leads_bind ended ?_ ?_
  · rintro s _ rfl
    rfl
  · rintro s f rfl
    rfl

theorem same_of_steady (h h' : Hub) (steady : Steady h h') (_ : Sees h h') : Same h h' :=
  steady.running

theorem same_within {m : Act Hub α} (hm : Act.Within Steady m) : Act.Within Same m :=
  fun h => (hm h).running

theorem submit_same : Act.Within Same submit := by
  intro h
  rw [outcome_submit]
  rfl

theorem executeAccount_keeps (names : List String) (r : Request)
    {listener : Option (BatchListener Hub)}
    (hl : ∀ f, listener = some f → ∀ name p, Work.Within Same (f name p)) :
    Keeps (fun s _ => s = .past) .early (executeAccount names r listener) := by
  have turns := Account.leads_attempt
    (telling_keeps (runNames_bounded (v := View.whole) same_of_steady hl r names) .inside)
  refine Account.leads_bind_ok begin_keeps ?_
  rintro s _ rfl
  refine Account.leads_bind_ok turns ?_
  rintro s result rfl
  exact end_keeps result

/-- A batch begins if its names are good. -/
theorem checked_keeps (names : List String) (r : Request) {listener : Option (BatchListener Hub)}
    (hl : ∀ f, listener = some f → ∀ name p, Work.Within Same (f name p)) :
    Keeps (fun s _ => s ≠ .inside) .early (do
      quietly (checkNames names)
      executeAccount names r listener) := by
  refine Account.leads_bind (quietly_keeps (same_within (checkNames_steady names)) .early) ?_ ?_
  · rintro s _ rfl
    refine (executeAccount_keeps names r hl).mono ?_
    rintro s e rfl
    simp
  · exact fun _ _ => Stage.outside

/-- Who waits for the end of a batch is told without a beginning or an end. -/
theorem waiting_keeps {completion : Option (List Analysis → Work Hub Unit)}
    (hc : ∀ f, completion = some f → ∀ as, Work.Within Same (f as)) (as : List Analysis) (s : Stage) :
    Keeps (fun s' _ => s' = s) s
      (telling .other
        (match completion with
        | none => pure ()
        | some f => f as)) := by
  refine telling_keeps ?_ s
  cases completion with
  | none => exact .pure _
  | some f => exact hc f rfl as

theorem taskAccount_keeps (names : List String) (r : Request)
    {listener : Option (BatchListener Hub)} {completion : Option (List Analysis → Work Hub Unit)}
    (hl : ∀ f, listener = some f → ∀ name p, Work.Within Same (f name p))
    (hc : ∀ f, completion = some f → ∀ as, Work.Within Same (f as)) :
    Keeps (fun s _ => s ≠ .inside) .early (taskAccount names r listener completion) := by
  unfold taskAccount
  refine Account.leads_bind_ok (Account.leads_attempt (checked_keeps names r hl)) ?_
  rintro s e out
  cases e with
  | ok as =>
    refine Account.leads_bind (waiting_keeps hc as s) ?_ ?_
    · rintro _ u rfl
      exact out
    · rintro _ f rfl
      exact out
  | error f =>
    have reported : Act.Within Same
        (inWorld (report ⟨.error, .orchestrator, "Batch analysis failed", none, none, some f⟩)) :=
      fun h => (world_apart 0 h _).running
    refine Account.leads_bind (quietly_keeps reported s) ?_ ?_
    · rintro _ u rfl
      refine Account.leads_bind (waiting_keeps hc [] _) ?_ ?_
      · rintro _ u rfl
        exact out
      · rintro _ f rfl
        exact out
    · rintro _ f rfl
      exact out

/-- A single run that has begun ends, whatever the tool does. -/
theorem begun_keeps (name : String) (i : ToolId) (r : Request) :
    Keeps (fun s _ => s = .past) .inside (do
      quietly clearCancel
      quietly (say .info name s!"Running {name} ...")
      let result ← (telling .other (execute View.whole i r)).attempt
      telling .ends (View.whole.work (setRunning false))
      Account.ofExcept result) := by
  have cleared := surely_keeps (m := clearCancel) (fun h => ⟨_, _, rfl, rfl⟩) .inside
  have said := surely_keeps (m := say .info name s!"Running {name} ...")
    (fun h => ⟨_, _, rfl, rfl⟩) .inside
  have runs := execute_bounded (v := View.whole) same_of_steady i r
  have ran := Account.leads_attempt (telling_keeps runs .inside)
  refine Account.leads_bind_ok cleared ?_
  rintro s _ rfl
  refine Account.leads_bind_ok said ?_
  rintro s _ rfl
  refine Account.leads_bind_ok ran ?_
  rintro s result rfl
  exact end_keeps result

theorem singleAccount_keeps (name : String) (r : Request) :
    Keeps (fun s _ => s ≠ .inside) .early (singleAccount name r) := by
  have early : ∀ (s : Stage) (_ : Fault), s = .early → s ≠ .inside := fun _ _ => Stage.outside
  have probed (i : ToolId) : Act.Within Same (isAvailable i) := fun h => (isAvailable_apart i h).running
  unfold singleAccount
  refine Account.leads_bind (quietly_keeps (same_within (require_steady name)) .early) ?_ early
  rintro s i rfl
  refine Account.leads_bind (quietly_keeps (probed i) .early) ?_ early
  rintro s found rfl
  cases found with
  | false => exact early _ (.toolUnavailable name) rfl
  | true =>
    refine Account.leads_bind_ok begin_keeps ?_
    rintro s _ rfl
    refine (begun_keeps name i r).mono ?_
    rintro s e rfl
    simp

theorem batchAccount_keeps (names : List String) (r : Request) :
    Keeps (fun s _ => s ≠ .inside) .early (batchAccount names r) := by
  have early : ∀ (s : Stage) (_ : Fault), s = .early → s ≠ .inside := fun _ _ => Stage.outside
  have cleared : Act.Within Same clearCancel := fun h => rfl
  unfold batchAccount
  refine Account.leads_bind (quietly_keeps (same_within (checkNames_steady names)) .early) ?_ early
  rintro s _ rfl
  refine Account.leads_bind (quietly_keeps cleared .early) ?_ early
  rintro s _ rfl
  have nobody : ∀ f : BatchListener Hub, none = some f → ∀ name p, Work.Within Same (f name p) := by
    intro f hf
    cases hf
  refine (executeAccount_keeps names r nobody).mono ?_
  rintro s e rfl
  simp

theorem account_keeps {c : Call} (hc : c.Callbacks Same) :
    Keeps (fun s _ => s ≠ .inside) .early (account c) := by
  cases c with
  | cancel =>
    refine Account.leads_map (quietly_keeps (fun h => (cancel_kept h).running) .early) ?_
    rintro s e rfl
    simp
  | single name r => exact Account.leads_map (singleAccount_keeps name r) fun s e out => out
  | batch names r => exact Account.leads_map (batchAccount_keeps names r) fun s e out => out
  | background names r listener completion =>
    refine Account.leads_bind (quietly_keeps submit_same .early) ?_ ?_
    · rintro s _ rfl
      exact Account.leads_map (taskAccount_keeps names r hc.1 hc.2) fun s e out => out
    · exact fun _ _ => Stage.outside

/-! ## The flag -/

/-- What comes are calls of a sort. -/
def Comes (ok : Call → Prop) (t : Trail Hub Told (Except Fault Unit)) : Prop :=
  ∃ c, ok c ∧ (account c).run = t

/-- How far the call `i` has come after what has been told. -/
def stageOf (i : Nat) (es : List (Nat × Told)) : Stage :=
  modeAfter Stage.next .early i es

/-- The call `i` is a batch or a single run that has begun and not ended. -/
def Executes (i : Nat) (es : List (Nat × Told)) : Prop :=
  stageOf i es = .inside

instance (i : Nat) (es : List (Nat × Told)) : Decidable (Executes i es) :=
  inferInstanceAs (Decidable (stageOf i es = .inside))

/-- Nothing begins or ends. -/
def Quiet (es : List (Nat × Told)) : Prop :=
  ∀ e ∈ es, e.2.mark = .other

/-- What the flag is: nothing began or ended yet, or it is as the last beginning or end left it. -/
inductive Left (start : Bool) (es : List (Nat × Told)) (flag : Bool) : Prop where
  | untouched (quiet : Quiet es) (same : flag = start)
  | touched {before after : List (Nat × Told)} {i : Nat} {e : Told}
    (told : es = before ++ (i, e) :: after) (quiet : Quiet after)
    (marks : e.mark = .begins ∧ flag = true ∨ e.mark = .ends ∧ flag = false)

theorem stageOf_self (i : Nat) (es : List (Nat × Told)) (e : Told) :
    stageOf i (es ++ [(i, e)]) = (stageOf i es).next e :=
  modeAfter_self Stage.next .early i es e

theorem stageOf_ne {i j : Nat} (other : j ≠ i) (es : List (Nat × Told)) (e : Told) :
    stageOf i (es ++ [(j, e)]) = stageOf i es :=
  modeAfter_ne Stage.next .early other es e

/-- Where nothing begins or ends, calls are as far as they were. -/
theorem stageOf_quiet (i : Nat) (before : List (Nat × Told)) {after : List (Nat × Told)}
    (quiet : Quiet after) : stageOf i (before ++ after) = stageOf i before := by
  induction after generalizing before with
  | nil => rw [List.append_nil]
  | cons e after ih =>
    have rest : Quiet after := fun x hx => quiet x (List.mem_cons_of_mem _ hx)
    have step : stageOf i (before ++ [e]) = stageOf i before := by
      by_cases own : e.1 = i
      · rw [← own, stageOf_self]
        unfold Stage.next
        rw [quiet e (List.mem_cons_self ..)]
      · exact stageOf_ne own before e.2
    have split := ih (before ++ [e]) rest
    rw [List.append_assoc] at split
    exact split.trans step

theorem stageOf_last {i : Nat} {before after : List (Nat × Told)} {e : Told} (quiet : Quiet after) :
    stageOf i (before ++ (i, e) :: after) = (stageOf i before).next e := by
  rw [List.append_cons, stageOf_quiet i _ quiet, stageOf_self]

theorem stageOf_other {i j : Nat} {before after : List (Nat × Told)} {e : Told} (other : j ≠ i)
    (quiet : Quiet after) : stageOf i (before ++ (j, e) :: after) = stageOf i before := by
  rw [List.append_cons, stageOf_quiet i _ quiet, stageOf_ne other]

/-- There is only one last beginning or end. -/
theorem last_unique {es before after before' after' : List (Nat × Told)} {x y : Nat × Told}
    (hx : es = before ++ x :: after) (hy : es = before' ++ y :: after') (quiet : Quiet after)
    (quiet' : Quiet after') (marks : x.2.mark ≠ .other) (marks' : y.2.mark ≠ .other) : x = y := by
  have same := hx.symm.trans hy
  rcases List.append_eq_append_iff.mp same with ⟨mid, -, rest⟩ | ⟨mid, -, rest⟩
  · rcases List.cons_eq_append_iff.mp rest with ⟨-, both⟩ | ⟨mid', -, inside⟩
    · exact (List.cons.inj both).1.symm
    · exact absurd (quiet y (by simp [inside])) marks'
  · rcases List.cons_eq_append_iff.mp rest with ⟨-, both⟩ | ⟨mid', -, inside⟩
    · exact (List.cons.inj both).1
    · exact absurd (quiet' x (by simp [inside])) marks

theorem Allows.ended {s : Stage} {h h' : Hub} {e : Told} (admits : Allows s h e h')
    (ends : e.mark = .ends) : s = .inside := by
  cases admits with
  | ends => rfl
  | begins => cases ends
  | other => cases ends

theorem Left.step {start : Bool} {es : List (Nat × Told)} {s : Stage} {h h' : Hub} {i : Nat} {e : Told}
    (left : Left start es h.running) (admits : Allows s h e h') :
    Left start (es ++ [(i, e)]) h'.running := by
  cases admits with
  | begins set => exact .touched rfl (by simp [Quiet]) (.inl ⟨rfl, set⟩)
  | ends cleared => exact .touched rfl (by simp [Quiet]) (.inr ⟨rfl, cleared⟩)
  | other same =>
    rw [same]
    cases left with
    | untouched quiet start =>
      refine .untouched ?_ start
      intro x hx
      rcases List.mem_append.mp hx with old | new
      · exact quiet x old
      · rw [List.mem_singleton.mp new]
    | @touched before after j e told quiet marks =>
      subst told
      refine .touched (List.append_assoc ..) ?_ marks
      intro x hx
      rcases List.mem_append.mp hx with old | new
      · exact quiet x old
      · rw [List.mem_singleton.mp new]

/-- What holds of the flag, in whatever order the calls take their steps. -/
structure FlagLaw (es : List (Nat × Told)) (q : Pool Hub (Trail Hub Told (Except Fault Unit))) :
    Prop where
  /-- The hub counts as running only while something runs. -/
  truthful : q.state.running = true → ∃ i, Executes i es
  /-- A call that is done, with an answer or with a fault, does not run. -/
  ended : ∀ i e, q.calls[i]? = some (.done e) → ¬ Executes i es
  /-- A call that runs is missed if and only if the last that began or ended was an end; it was that of
  another call, which ran at the same time. -/
  missed : ∀ i, Executes i es → (q.state.running = false ↔ ∃ before j e after,
    es = before ++ (j, e) :: after ∧ e.mark = .ends ∧ Quiet after ∧
      j ≠ i ∧ Executes i before ∧ Executes j before)
  /-- Where no two calls run at the same time, nothing is missed. -/
  complete : (∀ before after, es = before ++ after → ∀ i j, Executes i before → Executes j before →
    i = j) → (q.state.running = true ↔ ∃ i, Executes i es)

section
variable {ok : Call → Prop} {h₀ : Hub} {es : List (Nat × Told)}
variable {q : Pool Hub (Trail Hub Told (Except Fault Unit))}
variable (callbacks : ∀ c, ok c → c.Callbacks Same)
include callbacks

theorem comes_keeps (t : Trail Hub Told (Except Fault Unit)) (new : Comes ok t) :
    t.Leads (fun _ => True) Allows Stage.next (fun s _ => s ≠ .inside) .early := by
  obtain ⟨c, hc, rfl⟩ := new
  exact account_keeps (callbacks c hc)

theorem left_of_steps (steps : Steps (Comes ok) ⟨h₀, []⟩ es q) :
    Left h₀.running es q.state.running :=
  steps.history (P := fun es h => Left h₀.running es h.running) (comes_keeps callbacks)
    (fun _ _ _ _ _ _ => trivial) trivial (.untouched (by simp [Quiet]) rfl)
    fun _ _ _ _ _ left admits => left.step admits

/-- Whatever was told was admitted at its stage. -/
theorem told_allowed (steps : Steps (Comes ok) ⟨h₀, []⟩ es q) {before after : List (Nat × Told)}
    {i : Nat} {e : Told} (told : es = before ++ (i, e) :: after) :
    ∃ h h', Allows (stageOf i before) h e h' := by
  obtain ⟨q₁, q₂, -, -, admits⟩ := steps.admits_of_leads (comes_keeps callbacks)
    (fun _ _ _ _ _ _ => trivial) trivial told
  exact ⟨_, _, admits⟩

theorem executes_of_flag (idle : h₀.running = false) (steps : Steps (Comes ok) ⟨h₀, []⟩ es q)
    (set : q.state.running = true) : ∃ i, Executes i es := by
  cases left_of_steps callbacks steps with
  | untouched quiet same =>
    rw [same, idle] at set
    cases set
  | @touched before after i e told quiet marks =>
    rcases marks with ⟨begins, -⟩ | ⟨-, cleared⟩
    · refine ⟨i, ?_⟩
      unfold Executes
      rw [told, stageOf_last quiet]
      unfold Stage.next
      rw [begins]
    · rw [cleared] at set
      cases set

/-- If the flag misses a call, the last that began or ended was the end of another one. -/
theorem ended_of_missed (steps : Steps (Comes ok) ⟨h₀, []⟩ es q) {i : Nat} (runs : Executes i es)
    (cleared : q.state.running = false) : ∃ before j e after, es = before ++ (j, e) :: after ∧
      e.mark = .ends ∧ Quiet after ∧ j ≠ i ∧ Executes i before ∧ Executes j before := by
  cases left_of_steps callbacks steps with
  | untouched quiet same =>
    have early : stageOf i es = .early := stageOf_quiet i [] quiet
    unfold Executes at runs
    rw [early] at runs
    cases runs
  | @touched before after j e told quiet marks =>
    rcases marks with ⟨-, set⟩ | ⟨ends, -⟩
    · rw [cleared] at set
      cases set
    · obtain ⟨h, h', admits⟩ := told_allowed callbacks steps told
      unfold Executes at runs
      rw [told] at runs
      have other : j ≠ i := by
        rintro rfl
        rw [stageOf_last quiet] at runs
        unfold Stage.next at runs
        rw [ends] at runs
        cases runs
      rw [stageOf_other other quiet] at runs
      exact ⟨before, j, e, after, told, ends, quiet, other, runs, admits.ended ends⟩

theorem cleared_of_ended (steps : Steps (Comes ok) ⟨h₀, []⟩ es q) {before after : List (Nat × Told)}
    {j : Nat} {e : Told} (told : es = before ++ (j, e) :: after) (ends : e.mark = .ends)
    (quiet : Quiet after) : q.state.running = false := by
  cases left_of_steps callbacks steps with
  | untouched none =>
    have other := none (j, e) (by simp [told])
    rw [ends] at other
    cases other
  | touched told' quiet' marks =>
    rcases marks with ⟨begins, -⟩ | ⟨-, cleared⟩
    · have same := last_unique told told' quiet quiet' (by simp [ends]) (by simp [begins])
      cases same
      rw [ends] at begins
      cases begins
    · exact cleared

theorem law_of_steps (idle : h₀.running = false) (steps : Steps (Comes ok) ⟨h₀, []⟩ es q) :
    FlagLaw es q := by
  have truthful := executes_of_flag callbacks idle steps
  refine ⟨truthful, ?_, ?_, ?_⟩
  · intro i e done
    exact (steps.leads (comes_keeps callbacks) (fun _ _ _ _ _ _ => trivial) trivial).2 i _ done
  · intro i runs
    constructor
    · exact ended_of_missed callbacks steps runs
    · rintro ⟨before, j, e, after, told, ends, quiet, -⟩
      exact cleared_of_ended callbacks steps told ends quiet
  · intro alone
    refine ⟨truthful, ?_⟩
    rintro ⟨i, runs⟩
    cases flag : q.state.running with
    | true => rfl
    | false =>
      obtain ⟨before, j, e, after, told, -, -, other, first, second⟩ :=
        ended_of_missed callbacks steps runs flag
      exact absurd (alone before _ told j i second first) other

/-- Whatever happens to calls is told by their accounts, and whatever these tell of it obeys the law. -/
theorem flag_set_only_while_running (idle : h₀.running = false)
    {p : Pool Hub (Routine Hub (Except Fault Unit))}
    (happens : Happens (fun r => ∃ c, ok c ∧ c.work.run = r) ⟨h₀, []⟩ p) :
    (∃ es q, Steps (Comes ok) ⟨h₀, []⟩ es q ∧ q.erase = p) ∧
      ∀ es q, Steps (Comes ok) ⟨h₀, []⟩ es q → q.erase = p → FlagLaw es q :=
  ⟨happens.accounted erase_account, fun _ _ steps _ => law_of_steps callbacks idle steps⟩

end

/-- Two batches of one tool each. -/
def twoCalls : List Call :=
  [.background ["alpha"] (reportTo "") none none, .background ["beta"] (reportTo "") none none]

def quietPair : Hub :=
  holding (.bare .default) [quietTool "alpha", quietTool "beta"]

/-- Both batches go on at the same time. -/
def playTogether (is : List Nat) : Pool Hub (Trail Hub Told (Except Fault Unit)) × List (Nat × Told) :=
  Pool.play ⟨quietPair, twoCalls.map fun c => (account c).run⟩ is

theorem playTogether_steps (is : List Nat) :
    Steps (Comes (· ∈ twoCalls)) ⟨quietPair, []⟩ (playTogether is).2 (playTogether is).1 := by
  refine Steps.playAll (fun t ht => ?_) is
  obtain ⟨c, hc, rfl⟩ := List.mem_map.mp ht
  exact ⟨c, hc, rfl⟩

/-- The first batch begins, and the second one comes and goes. -/
def secondFirst : List Nat :=
  [0, 0, 0, 1, 1, 1, 1, 1, 1, 1, 1, 1, 1, 1]

theorem flag_set_only_while_running_secondFirst :
    FlagLaw (playTogether secondFirst).2 (playTogether secondFirst).1 ∧
      ((playTogether secondFirst).2.map fun e => (e.1, e.2.mark)).filter (·.2 ≠ .other) =
        [(0, .begins), (1, .begins), (1, .ends)] := by
  have silent : ∀ c ∈ twoCalls, c.Callbacks Same := by
    intro c hc
    simp only [twoCalls, List.mem_cons, List.not_mem_nil, or_false] at hc
    rcases hc with rfl | rfl
    · exact ⟨fun f hf => (nomatch hf), fun f hf => (nomatch hf)⟩
    · exact ⟨fun f hf => (nomatch hf), fun f hf => (nomatch hf)⟩
  have steps := playTogether_steps secondFirst
  have told := (flag_set_only_while_running silent rfl (steps.accounted erase_account)).2
  exact ⟨told _ _ steps rfl, by decide⟩

/-- The end of the second batch takes the flag from the first one, which goes on. -/
theorem not_every_run_is_told :
    ¬ ∀ (h₀ : Hub) (es : List (Nat × Told)) (q : Pool Hub (Trail Hub Told (Except Fault Unit))),
      h₀.running = false → Steps (Comes (· ∈ twoCalls)) ⟨h₀, []⟩ es q →
      ∀ i, Executes i es → q.state.running = true := by
  intro claim
  have set := claim quietPair _ _ rfl (playTogether_steps secondFirst) 0 (by decide)
  exact absurd set (by decide)

end LintHub.Hub.Running
