import LintHub.Proofs.Work.Outcome

/-! # Which faults there can be

`Faults P e`: if `e` is a fault then `P` holds of it. What can go wrong in a computation is what can
go wrong in its parts.
-/

namespace LintHub

variable {σ τ α β : Type} {P Q : Fault → Prop}

def Faults (P : Fault → Prop) (e : Except Fault α) : Prop :=
  ∀ f, e = .error f → P f

namespace Faults

theorem ok (a : α) : Faults P (.ok a : Except Fault α) := by
  intro f h
  cases h

theorem pure (a : α) : Faults P (Pure.pure a : Except Fault α) := ok a

theorem error {f : Fault} (h : P f) : Faults P (.error f : Except Fault α) := by
  intro g hg
  cases hg
  exact h

theorem throw {f : Fault} (h : P f) : Faults P (throw f : Except Fault α) := error h

theorem mono {e : Except Fault α} (he : Faults P e) (h : ∀ f, P f → Q f) : Faults Q e :=
  fun f hf => h f (he f hf)

theorem bind {e : Except Fault α} {k : α → Except Fault β} (he : Faults P e)
    (hk : ∀ a, Faults P (k a)) : Faults P (e >>= k) := by
  cases e with
  | ok a => exact hk a
  | error f => exact error (he f rfl)

theorem map {e : Except Fault α} {g : α → β} (he : Faults P e) : Faults P (e.map g) := by
  cases e with
  | ok a => exact ok _
  | error f => exact error (he f rfl)

theorem mapError {ε : Type} {e : Except ε α} {g : ε → Fault} (h : ∀ x, P (g x)) :
    Faults P (e.mapError g) := by
  cases e with
  | ok a => exact ok _
  | error x => exact error (h x)

theorem mapM {f : α → Except Fault β} {xs : List α} (h : ∀ x, Faults P (f x)) :
    Faults P (xs.mapM f) := by
  induction xs with
  | nil => exact ok _
  | cons x xs ih =>
    rw [List.mapM_cons]
    exact bind (h x) fun y => bind ih fun ys => pure _

theorem foldlM {f : β → α → Except Fault β} {xs : List α} (h : ∀ b x, Faults P (f b x)) (b : β) :
    Faults P (xs.foldlM f b) := by
  induction xs generalizing b with
  | nil => exact ok _
  | cons x xs ih => exact bind (h b x) ih

theorem filterAuxM {f : α → Except Fault Bool} {xs : List α} (h : ∀ x, Faults P (f x))
    (acc : List α) : Faults P (xs.filterAuxM f acc) := by
  induction xs generalizing acc with
  | nil => exact ok _
  | cons x xs ih => exact bind (h x) fun b => ih _

theorem filterM {f : α → Except Fault Bool} {xs : List α} (h : ∀ x, Faults P (f x)) :
    Faults P (xs.filterM f) :=
  bind (filterAuxM h []) fun _ => pure _

end Faults

theorem bind_error_iff {e : Except Fault α} {k : α → Except Fault β} {f : Fault} :
    (e >>= k) = .error f ↔ e = .error f ∨ ∃ a, e = .ok a ∧ k a = .error f := by
  cases e <;> simp [Bind.bind, Except.bind]

theorem bind_ok_iff {e : Except Fault α} {k : α → Except Fault β} {b : β} :
    (e >>= k) = .ok b ↔ ∃ a, e = .ok a ∧ k a = .ok b := by
  cases e <;> simp [Bind.bind, Except.bind]

theorem filterAuxM_ok_iff {f : α → Except Fault Bool} {xs acc ys : List α} :
    xs.filterAuxM f acc = .ok ys ↔
      (∀ x ∈ xs, ∃ b, f x = .ok b) ∧
        ys = (xs.filter fun x => (f x).toOption.getD false).reverse ++ acc := by
  induction xs generalizing acc with
  | nil =>
    rw [List.filterAuxM]
    simp [pure, Except.pure, eq_comm]
  | cons x xs ih =>
    rw [List.filterAuxM, bind_ok_iff, List.forall_mem_cons]
    constructor
    · rintro ⟨b, looked, rest⟩
      obtain ⟨all, rfl⟩ := ih.mp rest
      refine ⟨⟨⟨b, looked⟩, all⟩, ?_⟩
      cases b <;> simp [looked, Except.toOption]
    · rintro ⟨⟨⟨b, looked⟩, all⟩, rfl⟩
      refine ⟨b, looked, ih.mpr ⟨all, ?_⟩⟩
      cases b <;> simp [looked, Except.toOption]

/-- Filtering answers if the test does so everywhere. -/
theorem filterM_ok_iff {f : α → Except Fault Bool} {xs ys : List α} :
    xs.filterM f = .ok ys ↔
      (∀ x ∈ xs, ∃ b, f x = .ok b) ∧ ys = xs.filter fun x => (f x).toOption.getD false := by
  unfold List.filterM
  rw [bind_ok_iff]
  constructor
  · rintro ⟨back, went, turned⟩
    obtain ⟨all, rfl⟩ := filterAuxM_ok_iff.mp went
    refine ⟨all, ?_⟩
    rw [← Except.ok.inj turned, List.append_nil, List.reverse_reverse]
  · rintro ⟨all, rfl⟩
    refine ⟨_, filterAuxM_ok_iff.mpr ⟨all, rfl⟩, ?_⟩
    rw [List.append_nil, List.reverse_reverse]
    rfl

theorem map_error_iff {e : Except Fault α} {g : α → β} {f : Fault} :
    e.map g = .error f ↔ e = .error f := by
  cases e <;> simp [Except.map]

theorem map_ok_iff {e : Except Fault α} {g : α → β} {b : β} :
    e.map g = .ok b ↔ ∃ a, e = .ok a ∧ g a = b := by
  cases e <;> simp [Except.map]

theorem mapError_ok_iff {ε : Type} {e : Except ε α} {g : ε → Fault} {a : α} :
    e.mapError g = .ok a ↔ e = .ok a := by
  cases e with
  | ok b => exact ⟨fun h => congrArg Except.ok (Except.ok.inj h), fun h => h ▸ rfl⟩
  | error x => exact ⟨fun h => (nomatch h), fun h => (nomatch h)⟩

theorem mapError_error_iff {ε : Type} {e : Except ε α} {g : ε → Fault} {f : Fault} :
    e.mapError g = .error f ↔ ∃ x, e = .error x ∧ g x = f := by
  cases e with
  | ok a => exact ⟨fun h => (nomatch h), fun ⟨_, h, _⟩ => (nomatch h)⟩
  | error x =>
    constructor
    · intro h
      exact ⟨x, rfl, Except.error.inj h⟩
    · rintro ⟨y, h, rfl⟩
      cases h
      rfl

theorem mapM_ok_iff {f : α → Except Fault β} {xs : List α} :
    (∃ ys, xs.mapM f = .ok ys) ↔ ∀ x ∈ xs, ∃ y, f x = .ok y := by
  induction xs with
  | nil => exact ⟨fun _ _ h => (nomatch h), fun _ => ⟨[], rfl⟩⟩
  | cons x xs ih =>
    rw [List.forall_mem_cons, ← ih, List.mapM_cons]
    simp only [bind_ok_iff]
    constructor
    · rintro ⟨-, y, hy, ys, hys, -⟩
      exact ⟨⟨y, hy⟩, ys, hys⟩
    · rintro ⟨⟨y, hy⟩, ys, hys⟩
      exact ⟨_, y, hy, ys, hys, rfl⟩

/-- The first item at which a list cannot be gone through. -/
theorem mapM_error_iff {f : α → Except Fault β} {xs : List α} {e : Fault} :
    xs.mapM f = .error e ↔
      ∃ before x after, xs = before ++ x :: after ∧ (∀ y ∈ before, ∃ b, f y = .ok b) ∧
        f x = .error e := by
  induction xs with
  | nil =>
    constructor
    · intro h
      cases h
    · rintro ⟨before, x, after, h, -⟩
      simp at h
  | cons x xs ih =>
    rw [List.mapM_cons]
    cases first : f x with
    | error g =>
      constructor
      · intro h
        cases h
        exact ⟨[], x, xs, rfl, by simp, first⟩
      · rintro ⟨before, y, after, split, fine, fails⟩
        cases before with
        | nil =>
          cases split
          cases first.symm.trans fails
          rfl
        | cons z before =>
          cases split
          obtain ⟨b, hb⟩ := fine x (List.mem_cons_self ..)
          cases first.symm.trans hb
    | ok b =>
      have rest :
          (xs.mapM f >>= fun bs => Pure.pure (b :: bs)) = .error e ↔ xs.mapM f = .error e := by
        cases xs.mapM f <;> simp [Bind.bind, Except.bind, Pure.pure, Except.pure]
      show (xs.mapM f >>= fun bs => Pure.pure (b :: bs)) = .error e ↔ _
      rw [rest, ih]
      constructor
      · rintro ⟨before, y, after, rfl, fine, fails⟩
        refine ⟨x :: before, y, after, rfl, fun z hz => ?_, fails⟩
        rcases List.mem_cons.mp hz with rfl | hz
        · exact ⟨b, first⟩
        · exact fine z hz
      · rintro ⟨before, y, after, split, fine, fails⟩
        cases before with
        | nil =>
          cases split
          cases first.symm.trans fails
        | cons z before =>
          cases split
          exact ⟨before, y, after, rfl, fun z hz => fine z (List.mem_cons_of_mem _ hz), fails⟩

namespace Act

theorem lift_bind_error_iff {e : Except Fault α} {k : α → Act σ β} {s : σ} {f : Fault} :
    (((liftM e : Act σ α) >>= k).outcome s).1 = .error f ↔
      e = .error f ∨ ∃ a, e = .ok a ∧ ((k a).outcome s).1 = .error f := by
  rw [outcome_bind]
  cases e <;> simp

def Faults (P : Fault → Prop) (m : Act σ α) : Prop :=
  ∀ s, LintHub.Faults P (m.outcome s).1

namespace Faults

theorem pure (a : α) : Act.Faults P (Pure.pure a : Act σ α) := fun _ => .ok a

theorem get : Act.Faults P (MonadState.get : Act σ σ) := fun s => .ok s

theorem modify (f : σ → σ) : Act.Faults P (modify f : Act σ PUnit) := fun _ => .ok _

theorem lift {e : Except Fault α} (he : LintHub.Faults P e) :
    Act.Faults P (liftM e : Act σ α) := fun _ => he

theorem bind {m : Act σ α} {k : α → Act σ β} (hm : Act.Faults P m)
    (hk : ∀ a, Act.Faults P (k a)) : Act.Faults P (m >>= k) := by
  intro s
  have hs := hm s
  rw [outcome_bind]
  generalize m.outcome s = out at hs
  rcases out with ⟨f | a, t⟩
  · exact .error (hs f rfl)
  · exact hk a t

theorem forM {xs : List α} {f : α → Act σ PUnit} (hf : ∀ x, Act.Faults P (f x)) :
    Act.Faults P (xs.forM f) := by
  induction xs with
  | nil => exact pure _
  | cons x xs ih => exact bind (hf x) fun _ => ih

theorem view {v : View σ τ} {m : Act τ α} (hm : Act.Faults P m) : Act.Faults P (v.act m) :=
  fun s => hm (v.get s)

end Faults

end Act

namespace Work

def Faults (P : Fault → Prop) (w : Work σ α) : Prop :=
  ∀ s, LintHub.Faults P (w.outcome s).1

namespace Faults

theorem pure (a : α) : Work.Faults P (Pure.pure a : Work σ α) := fun _ => .ok a

theorem ofExcept {e : Except Fault α} (he : LintHub.Faults P e) :
    Work.Faults P (Work.ofExcept e : Work σ α) := fun _ => he

theorem work {v : View σ τ} {m : Act τ α} (hm : Act.Faults P m) : Work.Faults P (v.work m) :=
  fun s => hm (v.get s)

theorem bind {w : Work σ α} {k : α → Work σ β} (hw : Work.Faults P w)
    (hk : ∀ a, Work.Faults P (k a)) : Work.Faults P (w >>= k) := by
  intro s
  have hs := hw s
  rw [outcome_bind]
  generalize w.outcome s = out at hs
  rcases out with ⟨f | a, t⟩
  · exact .error (hs f rfl)
  · exact hk a t

/-- What goes on after work was attempted may give its fault again. -/
theorem attempt {w : Work σ α} {k : Except Fault α → Work σ β} (hw : Work.Faults P w)
    (hk : ∀ e, LintHub.Faults P e → Work.Faults P (k e)) : Work.Faults P (w.attempt >>= k) := by
  intro s
  rw [outcome_bind_ok (outcome_attempt w s)]
  exact hk _ (hw s) _

end Faults

end Work

end LintHub
