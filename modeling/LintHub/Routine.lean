import LintHub.World

/-! # Routines

Work that may stand still. A routine is a chain of atomic steps on a state, so that other work can be
done between any two of them; where it waits, it goes on only when it is released.
-/

namespace LintHub

inductive Routine (σ α : Type) where
  | done (a : α)
  /-- One atomic step; what comes next may depend on the state before it. -/
  | act (step : σ → σ) (next : σ → Routine σ α)
  | wait (next : Routine σ α)

namespace Routine

variable {σ τ α β : Type}

def bind : Routine σ α → (α → Routine σ β) → Routine σ β
  | done a, k => k a
  | act step next, k => act step fun s => bind (next s) k
  | wait next, k => wait (bind next k)

instance : Monad (Routine σ) where
  pure := done
  bind := bind

/-- One atomic step. -/
def lift (m : StateM σ α) : Routine σ α :=
  act (fun s => (m s).2) fun s => done (m s).1

/-- Stands still once. -/
def pause : Routine σ Unit :=
  wait (done ())

/-- Runs up to the end or the next wait. The second part is what is left: an answer or a routine. -/
def advance : Routine σ α → σ → σ × (α ⊕ Routine σ α)
  | done a, s => (s, .inl a)
  | act step next, s => advance (next s) (step s)
  | wait next, s => (s, .inr next)

/-- Runs to the end without standing still. -/
def run : Routine σ α → σ → α × σ
  | done a, s => (a, s)
  | act step next, s => run (next s) (step s)
  | wait next, s => run next s

@[simp] theorem bind_done (a : α) (k : α → Routine σ β) : bind (done a) k = k a := rfl

theorem bind_pure (p : Routine σ α) : bind p done = p := by
  induction p with
  | done a => rfl
  | act step next ih => simp only [bind, ih]
  | wait next ih => simp only [bind, ih]

theorem bind_assoc {γ : Type} (p : Routine σ α) (f : α → Routine σ β) (g : β → Routine σ γ) :
    bind (bind p f) g = bind p fun a => bind (f a) g := by
  induction p with
  | done a => rfl
  | act step next ih => simp only [bind, ih]
  | wait next ih => simp only [bind, ih]

theorem run_bind (p : Routine σ α) (f : α → Routine σ β) (s : σ) :
    run (bind p f) s = run (f (run p s).1) (run p s).2 := by
  induction p generalizing s with
  | done a => rfl
  | act step next ih => simp only [bind, run, ih]
  | wait next ih => simp only [bind, run, ih]

end Routine

/-- Work that may stand still and may fail. -/
abbrev Work (σ α : Type) := ExceptT Fault (Routine σ) α

/-- A part of a state that work can be done on. -/
structure View (σ τ : Type) where
  get : σ → τ
  set : σ → τ → σ

namespace View

variable {σ τ υ α : Type}

def whole : View σ σ :=
  ⟨fun s => s, fun _ t => t⟩

def trans (v : View σ τ) (w : View τ υ) : View σ υ :=
  ⟨fun s => w.get (v.get s), fun s u => v.set s (w.set (v.get s) u)⟩

/-- Does an act on a part. -/
def act (v : View σ τ) (m : Act τ α) : Act σ α :=
  ExceptT.mk fun s =>
    let (r, t) := m.run (v.get s)
    (r, v.set s t)

/-- Does an act on a part, as one atomic step. -/
def work (v : View σ τ) (m : Act τ α) : Work σ α :=
  ExceptT.mk (Routine.lift (v.act m).run)

end View

namespace Work

variable {σ α : Type}

def ofAct (m : Act σ α) : Work σ α :=
  ExceptT.mk (Routine.lift m.run)

def ofExcept (e : Except Fault α) : Work σ α :=
  ExceptT.mk (.done e)

def pause : Work σ Unit :=
  ExceptT.lift Routine.pause

/-- Does work and gives its fault as an answer. -/
def attempt (w : Work σ α) : Work σ (Except Fault α) :=
  ExceptT.mk (Routine.bind w.run fun r => .done (.ok r))

end Work

namespace Act

variable {σ α : Type}

def ofExcept (e : Except Fault α) : Act σ α :=
  ExceptT.mk (pure e)

def attempt (m : Act σ α) : Act σ (Except Fault α) :=
  ExceptT.mk fun s => let (r, s) := m.run s; (.ok r, s)

end Act

end LintHub
