import LintHub.Proofs.Work.Outcome

/-! # What every step keeps

`Within R` says that every single step of a routine leads from a state to one that `R` relates to
it, whatever the state is. It holds however the steps of other routines come in between; where none
do and `R` is reflexive and transitive, the whole run stays within `R`.
-/

namespace LintHub

variable {σ τ α β : Type} {R : σ → σ → Prop}

namespace Routine

def Within (R : σ → σ → Prop) : Routine σ α → Prop
  | done _ => True
  | act step next => (∀ s, R s (step s)) ∧ ∀ s, Within R (next s)
  | wait next => Within R next

theorem Within.bind {p : Routine σ α} {k : α → Routine σ β} (hp : p.Within R)
    (hk : ∀ a, (k a).Within R) : (p.bind k).Within R := by
  induction p with
  | done a => exact hk a
  | act step next ih => exact ⟨hp.1, fun s => ih s (hp.2 s)⟩
  | wait next ih => exact ih hp

theorem Within.of_all (h : ∀ s t, R s t) (p : Routine σ α) : p.Within R := by
  induction p with
  | done a => trivial
  | act step next ih => exact ⟨fun s => h _ _, ih⟩
  | wait next ih => exact ih

theorem Within.run {p : Routine σ α} (hp : p.Within R) (hrefl : ∀ s, R s s)
    (htrans : ∀ s t u, R s t → R t u → R s u) (s : σ) : R s (p.run s).2 := by
  induction p generalizing s with
  | done a => exact hrefl s
  | act step next ih => exact htrans _ _ _ (hp.1 s) (ih s (hp.2 s) (step s))
  | wait next ih => exact ih hp s

/-- Whether a routine can come to an answer, with whatever is done between its steps. -/
def Yields (a : α) : Routine σ α → Prop
  | done b => b = a
  | act _ next => ∃ s, Yields a (next s)
  | wait next => Yields a next

end Routine

namespace Act

/-- Whatever the state is, the act leads to one that `R` relates to it. -/
def Within (R : σ → σ → Prop) (m : Act σ α) : Prop :=
  ∀ s, R s (m.outcome s).2

theorem Within.pure (hrefl : ∀ s, R s s) (a : α) : Act.Within R (pure a : Act σ α) := hrefl

theorem Within.bind {m : Act σ α} {k : α → Act σ β} (hm : Act.Within R m)
    (hk : ∀ a, Act.Within R (k a)) (htrans : ∀ s t u, R s t → R t u → R s u) :
    Act.Within R (m >>= k) := by
  intro s
  have hs := hm s
  rw [outcome_bind]
  rcases ho : m.outcome s with ⟨_ | a, t⟩ <;> rw [ho] at hs
  · exact hs
  · exact htrans _ _ _ hs (hk a t)

theorem Within.attempt {m : Act σ α} (hm : Act.Within R m) : Act.Within R m.attempt := by
  intro s
  rw [outcome_attempt]
  exact hm s

theorem Within.forM {xs : List α} {f : α → Act σ PUnit} (hf : ∀ x, Act.Within R (f x))
    (hrefl : ∀ s, R s s) (htrans : ∀ s t u, R s t → R t u → R s u) :
    Act.Within R (xs.forM f) := by
  induction xs with
  | nil => exact hrefl
  | cons x xs ih => exact Within.bind (hf x) (fun _ => ih) htrans

/-- Whatever the act comes to, it leaves the state as it was. -/
abbrev Still (m : Act σ α) : Prop :=
  Act.Within (fun s s' => s' = s) m

theorem Still.within {m : Act σ α} (hm : Still m) (hrefl : ∀ s, R s s) : Act.Within R m := by
  intro s
  rw [hm s]
  exact hrefl s

theorem Still.bind {m : Act σ α} {k : α → Act σ β} (hm : Still m) (hk : ∀ a, Still (k a)) :
    Still (m >>= k) :=
  Within.bind hm hk fun _ _ _ first second => second.trans first

theorem Still.mapM {f : α → Act σ β} (hf : ∀ x, Still (f x)) (xs : List α) : Still (xs.mapM f) := by
  induction xs with
  | nil => exact fun _ => rfl
  | cons x xs ih =>
    rw [List.mapM_cons]
    exact .bind (hf x) fun _ => .bind ih fun _ _ => rfl

section
variable {f : α → Act σ Bool} (keeps : ∀ x, Act.Within R (f x))
include keeps

theorem Within.filterM (hrefl : ∀ s, R s s) (htrans : ∀ s t u, R s t → R t u → R s u) (xs : List α) :
    Act.Within R (xs.filterM f) := by
  have aux (acc : List α) : Act.Within R (xs.filterAuxM f acc) := by
    induction xs generalizing acc with
    | nil => exact hrefl
    | cons x xs ih => exact .bind (keeps x) (fun _ => ih _) htrans
  exact .bind (aux []) (fun _ => hrefl) htrans

/-- A filter whose tests change nothing that matters to any of them comes to what they tell at first. -/
theorem filterM_tells {g : α → Except Fault Bool} (htrans : ∀ s t u, R s t → R t u → R s u) {s : σ}
    (tells : ∀ x t, R s t → ((f x).outcome t).1 = g x) (xs : List α) (hs : R s s) :
    ((xs.filterM f).outcome s).1 = xs.filterM g := by
  have aux (acc : List α) (t : σ) (ht : R s t) :
      ((xs.filterAuxM f acc).outcome t).1 = xs.filterAuxM g acc := by
    induction xs generalizing acc t with
    | nil => rfl
    | cons x xs ih =>
      have kept := htrans _ _ _ ht (keeps x t)
      unfold List.filterAuxM
      rw [outcome_bind, ← tells x t ht]
      rcases told : (f x).outcome t with ⟨e | b, t'⟩ <;> rw [told] at kept
      · rfl
      · exact ih _ t' kept
  unfold List.filterM
  rw [outcome_bind, ← aux [] s hs]
  rcases (xs.filterAuxM f []).outcome s with ⟨e | ys, t⟩ <;> rfl

/-- What every test that comes to an answer brings about, and all of them keep, holds in the end. -/
theorem filterM_leaves {P : α → σ → Prop} (brings : ∀ x s b t, (f x).outcome s = (.ok b, t) → P x t)
    (stays : ∀ x s t, R s t → P x s → P x t) {xs ys : List α} {s t : σ}
    (done : (xs.filterM f).outcome s = (.ok ys, t)) : ∀ x ∈ xs, P x t := by
  have aux (xs : List α) (Q : σ → Prop) (kept : ∀ s t, R s t → Q s → Q t) (acc ys : List α) (s t : σ)
      (hs : Q s) (done : (xs.filterAuxM f acc).outcome s = (.ok ys, t)) :
      Q t ∧ ∀ x ∈ xs, P x t := by
    induction xs generalizing acc s Q with
    | nil =>
      cases done
      exact ⟨hs, by simp⟩
    | cons x xs ih =>
      obtain ⟨b, s', told, rest⟩ := outcome_bind_ok_iff.mp done
      have moved := keeps x s
      rw [told] at moved
      obtain ⟨⟨hq, hx⟩, others⟩ := ih (fun s => Q s ∧ P x s)
        (fun s t r both => ⟨kept s t r both.1, stays x s t r both.2⟩) _ s'
        ⟨kept s s' moved hs, brings x s b s' told⟩ rest
      exact ⟨hq, List.forall_mem_cons.mpr ⟨hx, others⟩⟩
  obtain ⟨zs, s', told, rest⟩ := outcome_bind_ok_iff.mp done
  cases rest
  exact (aux xs (fun _ => True) (fun _ _ _ _ => trivial) [] zs s t trivial told).2

end

end Act

namespace Work

def Within (R : σ → σ → Prop) (w : Work σ α) : Prop :=
  Routine.Within R w.run

theorem Within.pure (a : α) : Work.Within R (pure a : Work σ α) := trivial

theorem Within.throw (f : Fault) : Work.Within R (throw f : Work σ α) := trivial

theorem Within.ofExcept (e : Except Fault α) : Work.Within R (Work.ofExcept e : Work σ α) := trivial

theorem Within.pause : Work.Within R (pause : Work σ Unit) := trivial

theorem Within.bind {w : Work σ α} {k : α → Work σ β} (hw : Work.Within R w)
    (hk : ∀ a, Work.Within R (k a)) : Work.Within R (w >>= k) := by
  refine Routine.Within.bind hw fun r => ?_
  cases r with
  | ok a => exact hk a
  | error f => trivial

theorem Within.attempt {w : Work σ α} (hw : Work.Within R w) : Work.Within R w.attempt :=
  Routine.Within.bind hw fun _ => trivial

theorem Within.work {v : View σ τ} {m : Act τ α} (h : ∀ s, R s (v.set s (m.outcome (v.get s)).2)) :
    Work.Within R (v.work m) :=
  ⟨h, fun _ => trivial⟩

theorem Within.forM {xs : List α} {f : α → Work σ PUnit} (hf : ∀ x, Work.Within R (f x)) :
    Work.Within R (xs.forM f) := by
  induction xs with
  | nil => exact Within.pure _
  | cons x xs ih => exact Within.bind (hf x) fun _ => ih

theorem Within.outcome {w : Work σ α} (hw : Work.Within R w) (hrefl : ∀ s, R s s)
    (htrans : ∀ s t u, R s t → R t u → R s u) (s : σ) : R s (w.outcome s).2 :=
  Routine.Within.run hw hrefl htrans s

end Work

end LintHub
