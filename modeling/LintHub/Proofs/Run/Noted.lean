import LintHub.Proofs.Run.Progress

/-! # Notes on the progress of a run

The last note of a run that went well says that all of its files are done; of one that did not there
may be any.
-/

namespace LintHub

variable {σ τ α β : Type}

/-- What is left of `x` after some notes. -/
inductive Noted (note : τ → Progress → τ) (x : τ) : τ → Prop where
  | none : Noted note x x
  | more {y : τ} (before : Noted note x y) (p : Progress) : Noted note x (note y p)

/-- What a run comes to, and what is left of `x` after the notes on its progress. -/
structure Ran (note : τ → Progress → τ) (x : τ) (e : Except Fault Analysis) (x' : τ) : Prop where
  noted : Noted note x x'
  /-- The last note of a run that went well says that all files are done. -/
  finished : ∀ a, e = .ok a → a.success = true → ∃ y p, x' = note y p ∧ p.processed = p.total

section
variable {note : τ → Progress → τ} {x y : τ} {e : Except Fault Analysis}

theorem Ran.unsuccessful (noted : Noted note x y) (bad : Unsuccessful e) : Ran note x e y where
  noted := noted
  finished a is good := by
    rw [bad a is] at good
    cases good

theorem Ran.idle (bad : Unsuccessful e) : Ran note x e x :=
  .unsuccessful .none bad

theorem Ran.completed (noted : Noted note x y) {p : Progress} (all : p.processed = p.total) :
    Ran note x e (note y p) where
  noted := .more noted p
  finished _ _ _ := ⟨y, p, rfl, all⟩

theorem Ends.ran {is : τ → Adapter → Prop} {files : Int} (ends : Ends note is files x e y) :
    Ran note x e y := by
  cases ends with
  | short bad => exact .idle bad
  | full tool whole => exact .completed .none rfl

theorem Noted.trans {z : τ} (first : Noted note x y) (second : Noted note y z) : Noted note x z := by
  induction second with
  | none => exact first
  | more _ p ih => exact .more ih p

theorem Ran.begun {x' : τ} {p : Progress} (ran : Ran note (note x p) e x') : Ran note x e x' :=
  ⟨(Noted.more .none p).trans ran.noted, ran.finished⟩

end

namespace Execution

/-! ## External tools -/

theorem busy_gives : Act.Gives (fun a => a.success = false) busy :=
  .bind fun _ => .bind fun _ => .pure rfl

section
variable {v : View σ Bench} {look : σ → τ} (hv : ∀ s b, look (v.set s b) = look s)
variable {note : τ → Progress → τ} {listener : Progress → Work σ Unit}
variable (hl : ∀ p x, Work.Owned look (fun e x' => ∃ u, e = .ok u ∧ x' = note x p) (listener p) x)
include hv

/-- A run that did not go well ends without another note. -/
theorem unsuccessful_owned {m : Act Bench Analysis} (gives : Act.Gives (fun a => a.success = false) m)
    (x : τ) : Work.Owned look (Ran note x) (v.work m) x := by
  refine (Work.Owned.aside hv (P := Unsuccessful) (fun b => gives b) x).mono ?_
  rintro e _ ⟨rfl, bad⟩
  exact .idle bad

include hl

theorem run_owned (c : Config) (r : Request) (x : τ) :
    Work.Owned look (Ran note x) (run v c r ⟨some listener, none⟩) x := by
  rw [run_eq]
  refine .after (.work fun s => hv s _) (fun a => ?_) fun f => .idle (.error f)
  refine .after (.work fun s => hv s _) (fun started => ?_) fun f => .idle (.error f)
  refine .after (.work fun s => hv s _) (fun found => ?_) fun f => .idle (.error f)
  split
  · exact unsuccessful_owned hv (Bench.failed_gives _ _) x
  · refine .after (.work fun s => hv s _) (fun sources => ?_) fun f => .idle (.error f)
    have notes p x : Work.Owned look (fun _ x' => x' = note x p) (listener p) x :=
      (hl p x).mono fun _ _ ⟨_, _, noted⟩ => noted
    have deaf f (takes : (⟨some listener, none⟩ : Listeners σ).output = some f) line :
        Work.Within (fun s s' => look s' = look s) (f line) := nomatch takes
    refine (proceed_owned (fun s b _ => hv s b) (fun _ _ => True) (fun _ => trivial) rfl notes deaf
      c r a started sources.1 sources.2.length x).mono fun e x' ends => ?_
    exact .begun ends.ran

/-- The outcome of a run that was started, which may be a fault. -/
theorem start_owned (r : Request) (x : τ) :
    Work.Owned look (fun e x' => Ran note x (e >>= id) x') (start v r ⟨some listener, none⟩) x := by
  unfold start
  refine .after (.work fun s => hv s _) (fun c => ?_) fun f => .idle (.error f)
  refine .after (.work fun s => hv s _) (fun free => ?_) fun f => .idle (.error f)
  split
  · refine .bind_ok (.attempt (run_owned hv hl c r x)) fun e x' ran => ?_
    refine .after (.work fun s => hv s _) (fun _ => ran) fun f => ?_
    exact .unsuccessful ran.noted (.error f)
  · refine .bind (unsuccessful_owned hv busy_gives x) (fun a _ ran => ?_) fun f _ ran => ran
    exact ran

end

end Execution

end LintHub
