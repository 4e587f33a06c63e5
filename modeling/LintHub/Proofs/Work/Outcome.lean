import LintHub.Routine

/-! # Outcomes

What an act or a piece of work comes to, and the state that it leaves, when nothing else is done in
between. Each way of putting work together has one equation.
-/

namespace LintHub

variable {σ τ α β : Type}

namespace View

@[simp] theorem whole_get (s : σ) : (View.whole : View σ σ).get s = s := rfl

@[simp] theorem whole_set (s t : σ) : (View.whole : View σ σ).set s t = t := rfl

end View

namespace Act

/-- The answer or the fault of an act, and the state that it leaves. -/
def outcome (m : Act σ α) (s : σ) : Except Fault α × σ :=
  m.run s

@[simp] theorem outcome_pure (a : α) (s : σ) : outcome (pure a : Act σ α) s = (.ok a, s) := rfl

@[simp] theorem outcome_throw (f : Fault) (s : σ) :
    outcome (throw f : Act σ α) s = (.error f, s) := rfl

@[simp] theorem outcome_get (s : σ) : outcome (get : Act σ σ) s = (.ok s, s) := rfl

@[simp] theorem outcome_set (s t : σ) : outcome (set t : Act σ PUnit) s = (.ok ⟨⟩, t) := rfl

@[simp] theorem outcome_modify (f : σ → σ) (s : σ) :
    outcome (modify f : Act σ PUnit) s = (.ok ⟨⟩, f s) := rfl

@[simp] theorem outcome_except (e : Except Fault α) (s : σ) :
    outcome (liftM e : Act σ α) s = (e, s) := rfl

@[simp] theorem outcome_attempt (m : Act σ α) (s : σ) :
    outcome m.attempt s = (.ok (m.outcome s).1, (m.outcome s).2) := rfl

@[simp] theorem outcome_view (v : View σ τ) (m : Act τ α) (s : σ) :
    outcome (v.act m) s = ((m.outcome (v.get s)).1, v.set s (m.outcome (v.get s)).2) := rfl

@[simp] theorem outcome_map (g : α → β) (m : Act σ α) (s : σ) :
    outcome (g <$> m) s = ((m.outcome s).1.map g, (m.outcome s).2) := by
  unfold outcome ExceptT.run
  simp only [Functor.map, ExceptT.map, ExceptT.mk, bind, StateT.bind]
  cases m s with
  | mk r t => cases r <;> rfl

theorem outcome_bind (m : Act σ α) (k : α → Act σ β) (s : σ) :
    outcome (m >>= k) s =
      match m.outcome s with
      | (.ok a, t) => (k a).outcome t
      | (.error f, t) => (.error f, t) := by
  unfold outcome ExceptT.run
  simp only [bind, ExceptT.bind, ExceptT.mk, StateT.bind, ExceptT.bindCont]
  cases m s with
  | mk r t => cases r <;> rfl

theorem outcome_tryCatch (m : Act σ α) (k : Fault → Act σ α) (s : σ) :
    outcome (tryCatch m k) s =
      match m.outcome s with
      | (.ok a, t) => (.ok a, t)
      | (.error f, t) => (k f).outcome t := by
  unfold outcome ExceptT.run
  simp only [tryCatch, tryCatchThe, MonadExceptOf.tryCatch, ExceptT.tryCatch, ExceptT.mk, bind,
    StateT.bind]
  cases m s with
  | mk r t => cases r <;> rfl

theorem outcome_bind_ok {m : Act σ α} {k : α → Act σ β} {s t : σ} {a : α}
    (h : m.outcome s = (.ok a, t)) : outcome (m >>= k) s = (k a).outcome t := by
  rw [outcome_bind, h]

theorem outcome_bind_error {m : Act σ α} {k : α → Act σ β} {s t : σ} {f : Fault}
    (h : m.outcome s = (.error f, t)) : outcome (m >>= k) s = (.error f, t) := by
  rw [outcome_bind, h]

theorem outcome_bind_ok_iff {m : Act σ α} {k : α → Act σ β} {s u : σ} {b : β} :
    outcome (m >>= k) s = (.ok b, u) ↔
      ∃ a t, m.outcome s = (.ok a, t) ∧ (k a).outcome t = (.ok b, u) := by
  rw [outcome_bind]
  rcases m.outcome s with ⟨f | a, t⟩
  · simp
  · exact ⟨fun ends => ⟨a, t, rfl, ends⟩, fun ⟨_, _, same, ends⟩ => by cases same; exact ends⟩

theorem lift_bind_ok_iff {e : Except Fault α} {k : α → Act σ β} {s u : σ} {b : β} :
    outcome ((liftM e : Act σ α) >>= k) s = (.ok b, u) ↔
      ∃ a, e = .ok a ∧ (k a).outcome s = (.ok b, u) := by
  rw [outcome_bind, outcome_except]
  cases e <;> simp

/-- Going through a list without touching the state. -/
theorem outcome_mapM_except (f : α → Except Fault β) (xs : List α) (s : σ) :
    outcome (xs.mapM fun x => (liftM (f x) : Act σ β)) s = (xs.mapM f, s) := by
  induction xs with
  | nil => rfl
  | cons x xs ih =>
    rw [List.mapM_cons, List.mapM_cons, outcome_bind, outcome_except]
    cases f x with
    | error e => rfl
    | ok b =>
      dsimp only
      rw [outcome_bind, ih]
      cases xs.mapM f <;> rfl

end Act

namespace Work

/-- The answer or the fault of work that nothing comes in between, and the state that it leaves. -/
def outcome (w : Work σ α) (s : σ) : Except Fault α × σ :=
  Routine.run w.run s

@[simp] theorem outcome_pure (a : α) (s : σ) : outcome (pure a : Work σ α) s = (.ok a, s) := rfl

@[simp] theorem outcome_throw (f : Fault) (s : σ) :
    outcome (throw f : Work σ α) s = (.error f, s) := rfl

@[simp] theorem outcome_ofExcept (e : Except Fault α) (s : σ) :
    outcome (ofExcept e : Work σ α) s = (e, s) := rfl

@[simp] theorem outcome_pause (s : σ) : outcome (pause : Work σ Unit) s = (.ok (), s) := rfl

@[simp] theorem outcome_work (v : View σ τ) (m : Act τ α) (s : σ) :
    outcome (v.work m) s = ((m.outcome (v.get s)).1, v.set s (m.outcome (v.get s)).2) := rfl

theorem outcome_whole (m : Act σ α) (s : σ) : outcome (View.whole.work m) s = m.outcome s := rfl

@[simp] theorem outcome_attempt (w : Work σ α) (s : σ) :
    outcome w.attempt s = (.ok (w.outcome s).1, (w.outcome s).2) := by
  show Routine.run (Routine.bind w.run _) s = _
  rw [Routine.run_bind]
  rfl

@[simp] theorem outcome_map (g : α → β) (w : Work σ α) (s : σ) :
    outcome (g <$> w) s = ((w.outcome s).1.map g, (w.outcome s).2) := by
  show Routine.run (Routine.bind w.run _) s = _
  rw [Routine.run_bind]
  unfold outcome
  cases Routine.run w.run s with
  | mk r t => cases r <;> rfl

@[simp] theorem outcome_discard (w : Work σ α) (s : σ) :
    outcome (discard w) s = ((w.outcome s).1.map fun _ => (), (w.outcome s).2) :=
  outcome_map _ w s

theorem outcome_bind (w : Work σ α) (k : α → Work σ β) (s : σ) :
    outcome (w >>= k) s =
      match w.outcome s with
      | (.ok a, t) => (k a).outcome t
      | (.error f, t) => (.error f, t) := by
  show Routine.run (Routine.bind w.run (ExceptT.bindCont k)) s = _
  rw [Routine.run_bind]
  unfold outcome
  cases Routine.run w.run s with
  | mk r t => cases r <;> rfl

theorem outcome_bind_ok {w : Work σ α} {k : α → Work σ β} {s t : σ} {a : α}
    (h : w.outcome s = (.ok a, t)) : outcome (w >>= k) s = (k a).outcome t := by
  rw [outcome_bind, h]

theorem outcome_bind_error {w : Work σ α} {k : α → Work σ β} {s t : σ} {f : Fault}
    (h : w.outcome s = (.error f, t)) : outcome (w >>= k) s = (.error f, t) := by
  rw [outcome_bind, h]

theorem outcome_bind_ok_iff {w : Work σ α} {k : α → Work σ β} {s u : σ} {b : β} :
    outcome (w >>= k) s = (.ok b, u) ↔
      ∃ a t, w.outcome s = (.ok a, t) ∧ (k a).outcome t = (.ok b, u) := by
  rw [outcome_bind]
  rcases w.outcome s with ⟨f | a, t⟩
  · simp
  · exact ⟨fun ends => ⟨a, t, rfl, ends⟩, fun ⟨_, _, same, ends⟩ => by cases same; exact ends⟩

/-- Giving the fault as an answer and taking it back. -/
theorem attempt_bind_ofExcept (w : Work σ α) : (w.attempt >>= ofExcept) = w := by
  have assoc := Routine.bind_assoc w.run (fun r => .done (Except.ok r))
    (ExceptT.bindCont fun e => (ofExcept e : Work σ α))
  exact assoc.trans (Routine.bind_pure _)

end Work

end LintHub
