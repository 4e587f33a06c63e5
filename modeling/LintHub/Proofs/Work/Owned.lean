import LintHub.Proofs.Work.Faults
import LintHub.Proofs.Work.Steps

/-! # What a piece of work owns

Others may do anything between the steps of a piece of work, as long as they leave alone what `look`
shows of the state. Work that finds `x` there at first is followed through whatever else the states
have in them: `Owned look post w x` says that `post` holds of what it comes to and of what is there in
the end.
-/

namespace LintHub

variable {σ τ κ α β : Type} {look : σ → τ}

namespace Routine

def Owned (look : σ → τ) (post : α → τ → Prop) : Routine σ α → τ → Prop
  | done a, x => post a x
  | act step next, x => ∀ s, look s = x → Owned look post (next s) (look (step s))
  | wait next, x => Owned look post next x

theorem Owned.bind {r : Routine σ α} {k : α → Routine σ β} {mid : α → τ → Prop}
    {post : β → τ → Prop} {x : τ} (hr : r.Owned look mid x)
    (hk : ∀ a x, mid a x → (k a).Owned look post x) : (r.bind k).Owned look post x := by
  induction r generalizing x with
  | done a => exact hk a x hr
  | act step next ih => exact fun s hs => ih s (hr s hs)
  | wait next ih => exact ih hr

theorem Owned.mono {r : Routine σ α} {post post' : α → τ → Prop} {x : τ}
    (hr : r.Owned look post x) (h : ∀ a x, post a x → post' a x) : r.Owned look post' x := by
  induction r generalizing x with
  | done a => exact h a x hr
  | act step next ih => exact fun s hs => ih s (hr s hs)
  | wait next ih => exact ih hr

/-- To own less is enough. -/
theorem Owned.through {κ : Type} {g : τ → κ} {r : Routine σ α} {post : α → κ → Prop} {x : τ}
    (hr : r.Owned (fun s => g (look s)) post (g x)) :
    r.Owned look (fun a x' => post a (g x')) x := by
  induction r generalizing x with
  | done a => exact hr
  | act step next ih => exact fun s hs => ih s (hr s (congrArg g hs))
  | wait next ih => exact ih hr

/-- Where nothing is done in between. -/
theorem Owned.run {r : Routine σ α} {post : α → τ → Prop} {s : σ} (hr : r.Owned look post (look s)) :
    post (r.run s).1 (look (r.run s).2) := by
  induction r generalizing s with
  | done a => exact hr
  | act step next ih => exact ih s (hr s rfl)
  | wait next ih => exact ih hr

/-- A routine none of whose steps changes what is owned. -/
theorem Owned.still {r : Routine σ α} (hr : r.Within fun s s' => look s' = look s) (x : τ) :
    r.Owned look (fun _ x' => x' = x) x := by
  induction r with
  | done a => rfl
  | act step next ih =>
    intro s hs
    rw [hr.1 s, hs]
    exact ih s (hr.2 s)
  | wait next ih => exact ih hr

end Routine

namespace Work

def Owned (look : σ → τ) (post : Except Fault α → τ → Prop) (w : Work σ α) (x : τ) : Prop :=
  Routine.Owned look post w.run x

namespace Owned

variable {x : τ}

theorem mono {w : Work σ α} {post post' : Except Fault α → τ → Prop} (hw : Owned look post w x)
    (h : ∀ e x, post e x → post' e x) : Owned look post' w x :=
  Routine.Owned.mono hw h

theorem through {g : τ → κ} {w : Work σ α} {post : Except Fault α → κ → Prop}
    (hw : Owned (fun s => g (look s)) post w (g x)) : Owned look (fun e x' => post e (g x')) w x :=
  Routine.Owned.through hw

theorem outcome {w : Work σ α} {post : Except Fault α → τ → Prop} {s : σ}
    (hw : Owned look post w (look s)) : post (w.outcome s).1 (look (w.outcome s).2) :=
  Routine.Owned.run hw

theorem still {w : Work σ α} (hw : Work.Within (fun s s' => look s' = look s) w) (x : τ) :
    Owned look (fun _ x' => x' = x) w x :=
  Routine.Owned.still hw x

theorem bind {w : Work σ α} {k : α → Work σ β} {mid : Except Fault α → τ → Prop}
    {post : Except Fault β → τ → Prop} (hw : Owned look mid w x)
    (ok : ∀ a x, mid (.ok a) x → Owned look post (k a) x)
    (error : ∀ f x, mid (.error f) x → post (.error f) x) : Owned look post (w >>= k) x :=
  Routine.Owned.bind hw fun e x he => by
    cases e with
    | ok a => exact ok a x he
    | error f => exact error f x he

/-- Work that never fails. -/
theorem bind_ok {w : Work σ α} {k : α → Work σ β} {mid : α → τ → Prop}
    {post : Except Fault β → τ → Prop} (hw : Owned look (fun e x => ∃ a, e = .ok a ∧ mid a x) w x)
    (ok : ∀ a x, mid a x → Owned look post (k a) x) : Owned look post (w >>= k) x := by
  refine bind hw ?_ ?_
  · rintro a x ⟨_, ⟨⟩, ha⟩
    exact ok a x ha
  · rintro f x ⟨_, bad, -⟩
    cases bad

theorem attempt {w : Work σ α} {mid : Except Fault α → τ → Prop} (hw : Owned look mid w x) :
    Owned look (fun e x => ∃ o, e = .ok o ∧ mid o x) w.attempt x :=
  Routine.Owned.bind hw fun o _ ho => ⟨o, rfl, ho⟩

/-- One atomic step. -/
theorem work {v : View σ κ} {m : Act κ α} {post : Except Fault α → τ → Prop}
    (h : ∀ s, look s = x → post (m.outcome (v.get s)).1 (look (v.set s (m.outcome (v.get s)).2))) :
    Owned look post (v.work m) x := h

/-- One atomic step on another part of the state. -/
theorem aside {v : View σ κ} (hv : ∀ s y, look (v.set s y) = look s) {m : Act κ α}
    {P : Except Fault α → Prop} (h : ∀ y, P (m.outcome y).1) (x : τ) :
    Owned look (fun e x' => x' = x ∧ P e) (v.work m) x := by
  refine work fun s hs => ⟨?_, h _⟩
  rw [hv, hs]

/-- Work that leaves alone what is owned, before other work. -/
theorem after {w : Work σ α} {k : α → Work σ β} {post : Except Fault β → τ → Prop}
    (hw : Work.Within (fun s s' => look s' = look s) w) (ok : ∀ a, Owned look post (k a) x)
    (error : ∀ f, post (.error f) x) : Owned look post (w >>= k) x := by
  refine bind (still hw x) ?_ ?_
  · rintro a _ rfl
    exact ok a
  · rintro f _ rfl
    exact error f

end Owned

end Work

end LintHub
