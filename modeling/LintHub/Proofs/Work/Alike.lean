import LintHub.Proofs.Work.Outcome

/-! # Work that goes alike

Two acts, or two pieces of work, go alike if from related states they come to the same answer or
fault and leave related states. The states need not be of one kind. What is put together of parts
that go alike goes alike.
-/

namespace LintHub

variable {σ σ' τ τ' υ υ' α β : Type} {R : σ → τ → Prop} {B : υ → υ' → Prop}

namespace View

/-- Two views of states that are related show parts that are, and setting such parts keeps it so. -/
structure Match (R : σ → τ → Prop) (B : υ → υ' → Prop) (u : View σ υ) (u' : View τ υ') : Prop where
  get : ∀ {s t}, R s t → B (u.get s) (u'.get t)
  set : ∀ {s t x y}, R s t → B x y → R (u.set s x) (u'.set t y)

theorem Match.whole : Match R R (.whole : View σ σ) (.whole : View τ τ) where
  get related := related
  set _ related := related

/-- A state against the part of another that a view shows. -/
theorem Match.part {u : View σ υ} (get_set : ∀ s x, u.get (u.set s x) = x) :
    Match (fun s y => B (u.get s) y) B u (.whole : View υ' υ') where
  get related := related
  set {s t x y} _ parts := by
    show B (u.get (u.set s x)) y
    rw [get_set]
    exact parts

theorem Match.trans {κ κ' : Type} {C : κ → κ' → Prop} {u : View σ υ} {u' : View τ υ'}
    {w : View υ κ} {w' : View υ' κ'} (outer : Match R B u u') (inner : Match B C w w') :
    Match R C (u.trans w) (u'.trans w') where
  get related := inner.get (outer.get related)
  set related parts := outer.set related (inner.set (outer.get related) parts)

end View

namespace Act

def Alike (R : σ → τ → Prop) (m : Act σ α) (m' : Act τ α) : Prop :=
  ∀ s t, R s t → (m.outcome s).1 = (m'.outcome t).1 ∧ R (m.outcome s).2 (m'.outcome t).2

theorem Alike.pure (a : α) : Alike R (pure a) (pure a) :=
  fun _ _ related => ⟨rfl, related⟩

theorem Alike.throw (f : Fault) : Alike R (throw f : Act σ α) (throw f) :=
  fun _ _ related => ⟨rfl, related⟩

theorem Alike.lift (e : Except Fault α) : Alike R (liftM e : Act σ α) (liftM e) :=
  fun _ _ related => ⟨rfl, related⟩

theorem Alike.bind {m : Act σ α} {m' : Act τ α} {k : α → Act σ β} {k' : α → Act τ β}
    (hm : Alike R m m') (hk : ∀ a, Alike R (k a) (k' a)) : Alike R (m >>= k) (m' >>= k') := by
  intro s t related
  obtain ⟨answer, left⟩ := hm s t related
  rw [outcome_bind, outcome_bind]
  rcases first : m.outcome s with ⟨e, s'⟩
  rcases second : m'.outcome t with ⟨e', t'⟩
  rw [first, second] at answer left
  cases answer
  cases e with
  | ok a => exact hk a s' t' left
  | error f => exact ⟨rfl, left⟩

/-- Looking at the state and going on with what was seen. -/
theorem Alike.get {k : σ → Act σ β} {k' : τ → Act τ β}
    (h : ∀ s t, R s t → Alike R (k s) (k' t)) :
    Alike R (MonadState.get >>= k) (MonadState.get >>= k') := by
  intro s t related
  rw [outcome_bind_ok (outcome_get s), outcome_bind_ok (outcome_get t)]
  exact h s t related s t related

theorem Alike.set {s : σ} {t : τ} (related : R s t) :
    Alike R (set s : Act σ PUnit) (set t : Act τ PUnit) :=
  fun _ _ _ => ⟨rfl, related⟩

theorem Alike.modify {f : σ → σ} {g : τ → τ} (h : ∀ s t, R s t → R (f s) (g t)) :
    Alike R (modify f : Act σ PUnit) (modify g : Act τ PUnit) :=
  fun s t related => ⟨rfl, h s t related⟩

theorem Alike.modifyGet {f : σ → α × σ} {g : τ → α × τ}
    (h : ∀ s t, R s t → (f s).1 = (g t).1 ∧ R (f s).2 (g t).2) :
    Alike R (modifyGet f : Act σ α) (modifyGet g : Act τ α) :=
  fun s t related => ⟨congrArg Except.ok (h s t related).1, (h s t related).2⟩

theorem Alike.attempt {m : Act σ α} {m' : Act τ α} (hm : Alike R m m') :
    Alike R m.attempt m'.attempt := by
  intro s t related
  obtain ⟨answer, left⟩ := hm s t related
  rw [outcome_attempt, outcome_attempt]
  exact ⟨congrArg Except.ok answer, left⟩

theorem Alike.view {u : View σ υ} {u' : View τ υ'} (parts : View.Match R B u u') {m : Act υ α}
    {m' : Act υ' α} (hm : Alike B m m') : Alike R (u.act m) (u'.act m') := by
  intro s t related
  obtain ⟨answer, left⟩ := hm _ _ (parts.get related)
  rw [outcome_view, outcome_view]
  exact ⟨answer, parts.set related left⟩

theorem Alike.forM {xs : List α} {f : α → Act σ PUnit} {g : α → Act τ PUnit}
    (h : ∀ x, Alike R (f x) (g x)) : Alike R (xs.forM f) (xs.forM g) := by
  induction xs with
  | nil => exact .pure _
  | cons x xs ih => exact .bind (h x) fun _ => ih

/-- An act goes like itself where states are the same. -/
theorem Alike.same (m : Act σ α) : Alike Eq m m := by
  rintro s _ rfl
  exact ⟨rfl, rfl⟩

end Act

namespace Work

def Alike (R : σ → τ → Prop) (w : Work σ α) (w' : Work τ α) : Prop :=
  ∀ s t, R s t → (w.outcome s).1 = (w'.outcome t).1 ∧ R (w.outcome s).2 (w'.outcome t).2

theorem Alike.pure (a : α) : Alike R (pure a) (pure a) :=
  fun _ _ related => ⟨rfl, related⟩

theorem Alike.throw (f : Fault) : Alike R (throw f : Work σ α) (throw f) :=
  fun _ _ related => ⟨rfl, related⟩

theorem Alike.ofExcept (e : Except Fault α) : Alike R (Work.ofExcept e) (Work.ofExcept e) :=
  fun _ _ related => ⟨rfl, related⟩

theorem Alike.pause : Alike R (Work.pause : Work σ Unit) Work.pause :=
  fun _ _ related => ⟨rfl, related⟩

theorem Alike.work {u : View σ υ} {u' : View τ υ'} (parts : View.Match R B u u') {m : Act υ α}
    {m' : Act υ' α} (hm : Act.Alike B m m') : Alike R (u.work m) (u'.work m') :=
  Act.Alike.view parts hm

/-- Looking at a part of the state and going on with what was seen. -/
theorem Alike.get {u : View σ υ} {u' : View τ υ'} (parts : View.Match R B u u')
    {k : υ → Work σ α} {k' : υ' → Work τ α} (h : ∀ x y, B x y → Alike R (k x) (k' y)) :
    Alike R (u.work MonadState.get >>= k) (u'.work MonadState.get >>= k') := by
  intro s t related
  have seen := parts.get related
  exact h _ _ seen _ _ (parts.set related seen)

theorem Alike.bind {w : Work σ α} {w' : Work τ α} {k : α → Work σ β} {k' : α → Work τ β}
    (hw : Alike R w w') (hk : ∀ a, Alike R (k a) (k' a)) : Alike R (w >>= k) (w' >>= k') := by
  intro s t related
  obtain ⟨answer, left⟩ := hw s t related
  rw [outcome_bind, outcome_bind]
  rcases first : w.outcome s with ⟨e, s'⟩
  rcases second : w'.outcome t with ⟨e', t'⟩
  rw [first, second] at answer left
  cases answer
  cases e with
  | ok a => exact hk a s' t' left
  | error f => exact ⟨rfl, left⟩

theorem Alike.attempt {w : Work σ α} {w' : Work τ α} (hw : Alike R w w') :
    Alike R w.attempt w'.attempt := by
  intro s t related
  obtain ⟨answer, left⟩ := hw s t related
  rw [outcome_attempt, outcome_attempt]
  exact ⟨congrArg Except.ok answer, left⟩

/-- Work that comes to nothing can be left out. -/
theorem Alike.skip {w : Work σ Unit} {k : Work σ α} {k' : Work τ α}
    (hw : Alike R w (Pure.pure () : Work τ Unit)) (hk : Alike R k k') :
    Alike R (w >>= fun _ => k) k' :=
  Alike.bind hw fun _ => hk

theorem Alike.forM {xs : List α} {f : α → Work σ PUnit} {g : α → Work τ PUnit}
    (h : ∀ x, Alike R (f x) (g x)) : Alike R (xs.forM f) (xs.forM g) := by
  induction xs with
  | nil => exact .pure _
  | cons x xs ih => exact .bind (h x) fun _ => ih

/-- Going through a list with work that comes to nothing. -/
theorem Alike.forM_skip {xs : List α} {f : α → Work σ PUnit}
    (h : ∀ x, Alike R (f x) (Pure.pure ⟨⟩ : Work τ PUnit)) :
    Alike R (xs.forM f) (Pure.pure ⟨⟩ : Work τ PUnit) := by
  induction xs with
  | nil => exact .pure _
  | cons x xs ih => exact .skip (h x) ih

end Work

end LintHub
