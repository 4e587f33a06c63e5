import LintHub.Proofs.Work.Trail

/-! # Idle steps

A routine stutters another one if it does the same with idle steps in between. Idle steps leave the
state alone, so that whatever happens to the routines happens to those that stutter them.
-/

namespace LintHub

variable {σ α β : Type}

namespace Routine

inductive Stutters : Routine σ α → Routine σ α → Prop where
  | done (a : α) : Stutters (done a) (done a)
  | act {step : σ → σ} {next next' : σ → Routine σ α} (h : ∀ s, Stutters (next s) (next' s)) :
    Stutters (act step next) (act step next')
  | wait {next next' : Routine σ α} (h : Stutters next next') : Stutters (wait next) (wait next')
  | idle {next r : Routine σ α} (h : Stutters next r) : Stutters (act (fun s => s) fun _ => next) r

theorem Stutters.refl (r : Routine σ α) : Stutters r r := by
  induction r with
  | done a => exact .done a
  | act step next ih => exact .act ih
  | wait next ih => exact .wait ih

theorem Stutters.bind {p p' : Routine σ α} {k k' : α → Routine σ β} (h : Stutters p p')
    (hk : ∀ a, Stutters (k a) (k' a)) : Stutters (p.bind k) (p'.bind k') := by
  induction h with
  | done a => exact hk a
  | act _ ih => exact .act ih
  | wait _ ih => exact .wait ih
  | idle _ ih => exact .idle ih

/-- The first step of both is the same: idle steps come only later. -/
inductive InStep : Routine σ α → Routine σ α → Prop where
  | done (a : α) : InStep (done a) (done a)
  | act {step : σ → σ} {next next' : σ → Routine σ α} (h : ∀ s, Stutters (next s) (next' s)) :
    InStep (act step next) (act step next')
  | wait {next next' : Routine σ α} (h : Stutters next next') : InStep (wait next) (wait next')

end Routine

open Routine

namespace Work

/-- Work that does the same with idle steps in between. -/
def Stutters (w' w : Work σ α) : Prop :=
  Routine.Stutters w'.run w.run

theorem Stutters.refl (w : Work σ α) : Stutters w w :=
  Routine.Stutters.refl _

theorem Stutters.bind {w' w : Work σ α} {k' k : α → Work σ β} (h : Stutters w' w)
    (hk : ∀ a, Stutters (k' a) (k a)) : Stutters (w' >>= k') (w >>= k) := by
  refine Routine.Stutters.bind h fun e => ?_
  cases e with
  | ok a => exact hk a
  | error f => exact .done _

theorem Stutters.idle {w' w : Work σ α} (h : Stutters w' w) :
    Stutters (View.whole.work (pure ()) >>= fun () => w') w :=
  Routine.Stutters.idle h

end Work

/-- The same state, and calls that stutter those of the other pool. -/
structure Pool.Stutters (p' p : Pool σ (Routine σ α)) : Prop where
  state : p'.state = p.state
  calls : ∀ i : Nat, Option.Rel Routine.Stutters (p'.calls[i]?) (p.calls[i]?)

section
variable {p' : Pool σ (Routine σ α)} {s : σ} {rs : List (Routine σ α)} {i : Nat}

/-- A call goes on by its idle steps until it is in step. -/
theorem Happens.settle {r r' : Routine σ α} (before : Happens (fun _ => False) p' ⟨s, rs⟩)
    (here : rs[i]? = some r') (h : Stutters r' r) :
    ∃ r'', Happens (fun _ => False) p' ⟨s, rs.set i r''⟩ ∧ InStep r'' r := by
  have unchanged {r' : Routine σ α} {rs : List (Routine σ α)} (here : rs[i]? = some r') :
      rs.set i r' = rs := by
    obtain ⟨bound, rfl⟩ := List.getElem?_eq_some_iff.mp here
    exact List.set_getElem_self bound
  induction h generalizing rs with
  | done a => exact ⟨_, by rwa [unchanged here], .done a⟩
  | act h => exact ⟨_, by rwa [unchanged here], .act h⟩
  | wait h => exact ⟨_, by rwa [unchanged here], .wait h⟩
  | @idle next r h ih =>
    obtain ⟨bound, -⟩ := List.getElem?_eq_some_iff.mp here
    obtain ⟨r'', after, inStep⟩ := ih (.act before here) (List.getElem?_set_self bound)
    rw [List.set_set] at after
    exact ⟨r'', after, inStep⟩

theorem Pool.Stutters.call {p : Pool σ (Routine σ α)} {r : Routine σ α} (h : p'.Stutters p)
    (here : p.calls[i]? = some r) : ∃ r', p'.calls[i]? = some r' ∧ Routine.Stutters r' r := by
  have there := h.calls i
  rw [here] at there
  cases found : p'.calls[i]? with
  | none =>
    rw [found] at there
    cases there
  | some r' =>
    rw [found] at there
    cases there with
    | some stutters => exact ⟨r', rfl, stutters⟩

/-- After one call has gone on in both pools. -/
theorem Pool.Stutters.set {s' : σ} {rs' : List (Routine σ α)} {r r' : Routine σ α}
    (h : Pool.Stutters ⟨s, rs'⟩ ⟨s, rs⟩) (hr : Routine.Stutters r' r) :
    Pool.Stutters ⟨s', rs'.set i r'⟩ ⟨s', rs.set i r⟩ := by
  refine ⟨rfl, fun j => ?_⟩
  have there : Option.Rel Routine.Stutters rs'[j]? rs[j]? := h.calls j
  show Option.Rel Routine.Stutters (rs'.set i r')[j]? (rs.set i r)[j]?
  rw [List.getElem?_set, List.getElem?_set]
  by_cases same : i = j
  · subst same
    rw [if_pos rfl, if_pos rfl]
    rcases Nat.lt_or_ge i rs.length with bound | out
    · obtain ⟨_, here, -⟩ := h.call (List.getElem?_eq_getElem bound)
      have bound' : i < rs'.length := (List.getElem?_eq_some_iff.mp here).1
      rw [if_pos bound, if_pos bound']
      exact .some hr
    · rw [List.getElem?_eq_none out] at there
      cases found : rs'[i]? with
      | none =>
        have out' : rs'.length ≤ i := List.getElem?_eq_none_iff.mp found
        rw [if_neg (Nat.not_lt.mpr out), if_neg (Nat.not_lt.mpr out')]
        exact .none
      | some _ =>
        rw [found] at there
        cases there
  · rw [if_neg same, if_neg same]
    exact there

/-- Whatever happens to some calls happens to those that stutter them. -/
theorem Happens.stutter {p q : Pool σ (Routine σ α)} (both : p'.Stutters p)
    (h : Happens (fun _ => False) p q) :
    ∃ q', Happens (fun _ => False) p' q' ∧ q'.Stutters q := by
  induction h with
  | none => exact ⟨p', .none, both⟩
  | call _ new => exact new.elim
  | @act s rs i step next before here ih =>
    obtain ⟨⟨_, rs'⟩, steps, stutters⟩ := ih
    obtain ⟨r', there, hr⟩ := stutters.call here
    cases stutters.state
    obtain ⟨r'', settled, inStep⟩ := steps.settle there hr
    cases inStep with
    | act later =>
      obtain ⟨bound, -⟩ := List.getElem?_eq_some_iff.mp there
      have gone := settled.act (List.getElem?_set_self bound)
      rw [List.set_set] at gone
      exact ⟨_, gone, stutters.set (later s)⟩
  | @wait s rs i next before here ih =>
    obtain ⟨⟨_, rs'⟩, steps, stutters⟩ := ih
    obtain ⟨r', there, hr⟩ := stutters.call here
    cases stutters.state
    obtain ⟨r'', settled, inStep⟩ := steps.settle there hr
    cases inStep with
    | wait later =>
      obtain ⟨bound, -⟩ := List.getElem?_eq_some_iff.mp there
      have gone := settled.wait (List.getElem?_set_self bound)
      rw [List.set_set] at gone
      exact ⟨_, gone, stutters.set later⟩

theorem Pool.Stutters.of_map {ι : Type} {f g : ι → Routine σ α} (xs : List ι)
    (h : ∀ x, Routine.Stutters (f x) (g x)) : Pool.Stutters ⟨s, xs.map f⟩ ⟨s, xs.map g⟩ := by
  refine ⟨rfl, fun i => ?_⟩
  show Option.Rel Routine.Stutters (xs.map f)[i]? (xs.map g)[i]?
  rw [List.getElem?_map, List.getElem?_map]
  cases xs[i]? with
  | none => exact .none
  | some x => exact .some (h x)

/-- Whatever happens to some calls is told by trails that stutter them. A call that is done has told
everything. -/
theorem Happens.told {ε : Type} {ts : List (Trail σ ε α)} {p q : Pool σ (Routine σ α)}
    (both : Pool.Stutters (Pool.erase ⟨s, ts⟩) p) (h : Happens (fun _ => False) p q) {a : α}
    (done : q.calls[i]? = some (.done a)) :
    ∃ es q', Steps (fun _ => False) ⟨s, ts⟩ es q' ∧ q'.state = q.state ∧
      q'.calls[i]? = some (.done a) := by
  obtain ⟨⟨s', rs⟩, happens, stutters⟩ := h.stutter both
  obtain ⟨r', there, hr⟩ := stutters.call done
  obtain ⟨r'', settled, inStep⟩ := happens.settle there hr
  cases inStep with
  | done a =>
    obtain ⟨bound, -⟩ := List.getElem?_eq_some_iff.mp there
    have alone : Happens (fun r => ∃ t : Trail σ ε α, False ∧ t.erase = r) (Pool.erase ⟨s, ts⟩)
        ⟨s', rs.set i (.done a)⟩ := settled.mono fun _ never => never.elim
    obtain ⟨es, ⟨_, ts'⟩, steps, erased⟩ := alone.steps
    refine ⟨es, _, steps, (congrArg Pool.state erased).trans stutters.state, ?_⟩
    have calls : ts'.map Trail.erase = rs.set i (.done a) := congrArg Pool.calls erased
    have ended : (ts'.map Trail.erase)[i]? = some (.done a) := by
      rw [calls]
      exact List.getElem?_set_self bound
    rw [List.getElem?_map] at ended
    obtain ⟨t, here, erases⟩ := Option.map_eq_some_iff.mp ended
    cases t with
    | done a' =>
      cases erases
      exact here
    | act step tells next => cases erases
    | wait next => cases erases

end

end LintHub
