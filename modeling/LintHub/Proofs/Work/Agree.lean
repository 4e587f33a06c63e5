import LintHub.Proofs.Work.Alike

/-! # Work that agrees

Two pieces of work agree on a part of the state if, wherever they find it the same, they come to the
same answer or fault and leave it the same: they go alike, where states are related that have this
part in common. What else there is in the state may differ: that is where those who listen keep what
they hear.
-/

namespace LintHub

variable {σ τ υ α β : Type} {v : View σ τ} {u : View σ υ}

namespace View

/-- A view of nothing but what `v` shows. -/
structure Over (v : View σ τ) (u : View σ υ) : Prop where
  get : ∀ s t, v.get s = v.get t → u.get s = u.get t
  set : ∀ s t x, v.get s = v.get t → v.get (u.set s x) = v.get (u.set t x)

theorem Over.refl (get_set : ∀ s x, v.get (v.set s x) = x) : v.Over v where
  get _ _ same := same
  set s t x _ := by rw [get_set, get_set]

theorem Over.trans {κ : Type} (hu : v.Over u) (w : View υ κ) : v.Over (u.trans w) where
  get s t same := congrArg w.get (hu.get s t same)
  set s t x same := by
    show v.get (u.set s (w.set (u.get s) x)) = v.get (u.set t (w.set (u.get t) x))
    rw [hu.get s t same]
    exact hu.set s t _ same

theorem Over.match (hu : v.Over u) : Match (fun s t => v.get s = v.get t) Eq u u where
  get same := hu.get _ _ same
  set same parts := by
    subst parts
    exact hu.set _ _ _ same

end View

namespace Work

def Agrees (v : View σ τ) (w₁ w₂ : Work σ α) : Prop :=
  ∀ s t, v.get s = v.get t → (w₁.outcome s).1 = (w₂.outcome t).1 ∧
    v.get (w₁.outcome s).2 = v.get (w₂.outcome t).2

theorem Agrees.pure (a : α) : Agrees v (pure a) (pure a) :=
  Alike.pure a

theorem Agrees.ofExcept (e : Except Fault α) : Agrees v (Work.ofExcept e) (Work.ofExcept e) :=
  Alike.ofExcept e

theorem Agrees.pause : Agrees v (Work.pause : Work σ Unit) Work.pause :=
  Alike.pause

theorem Agrees.work (hu : v.Over u) (m : Act υ α) : Agrees v (u.work m) (u.work m) :=
  Alike.work hu.match (.same m)

theorem Agrees.bind {w₁ w₂ : Work σ α} {k₁ k₂ : α → Work σ β} (hw : Agrees v w₁ w₂)
    (hk : ∀ a, Agrees v (k₁ a) (k₂ a)) : Agrees v (w₁ >>= k₁) (w₂ >>= k₂) :=
  Alike.bind hw hk

theorem Agrees.attempt {w₁ w₂ : Work σ α} (hw : Agrees v w₁ w₂) :
    Agrees v w₁.attempt w₂.attempt :=
  Alike.attempt hw

/-- Work that comes to nothing can be left out. -/
theorem Agrees.skip {w : Work σ Unit} {k k' : Work σ α} (hw : Agrees v w (Pure.pure ()))
    (hk : Agrees v k k') : Agrees v (w >>= fun _ => k) k' :=
  Alike.skip hw hk

theorem Agrees.forM {xs : List α} {f g : α → Work σ PUnit} (h : ∀ x, Agrees v (f x) (g x)) :
    Agrees v (xs.forM f) (xs.forM g) :=
  Alike.forM h

end Work

end LintHub
