import LintHub.Proofs.Batch.Noted
import LintHub.Proofs.Http.Table

/-! # The progress of jobs

The table keeps the last progress of each tool of a job under the name of the tool. When the batch of
a job has come to its analyses, the entry of each tool whose last run went well says that all of its
files are done.
-/

namespace LintHub.Http.Service

/-! ## The progress in the table -/

/-- The progress that the table shows of a job. -/
def shown (id : String) (s : Service) : Option (List (String × Progress)) :=
  (s.job? id).map (·.progress)

def noteOn (x : Option (List (String × Progress))) (name : String) (p : Progress) :
    Option (List (String × Progress)) :=
  x.map fun progress => setNamed progress name p

def entryOf (x : Option (List (String × Progress))) (tool : String) : Option Progress :=
  x.bind fun progress => progress.lookup tool

section
variable {x x' : Option (List (String × Progress))} {tool name : String}

theorem entryOf_noteOn_ne (other : tool ≠ name) (p : Progress) :
    entryOf (noteOn x name p) tool = entryOf x tool := by
  cases x with
  | none => rfl
  | some progress =>
    show (setNamed progress name p).lookup tool = _
    rw [lookup_setNamed, if_neg other]
    rfl

theorem noted_other (other : tool ≠ name) (noted : Noted (fun x p => noteOn x name p) x x') :
    entryOf x' tool = entryOf x tool := by
  induction noted with
  | none => rfl
  | more _ p ih => rw [entryOf_noteOn_ne other, ih]

theorem noted_isSome (noted : Noted (fun x p => noteOn x name p) x x') : x'.isSome = x.isSome := by
  induction noted with
  | none => rfl
  | more _ p ih => rw [noteOn, Option.isSome_map, ih]

/-- The last note of a run that went well stands in the table. -/
theorem ran_entry {a : Analysis} (ran : Ran (fun x p => noteOn x name p) x (.ok a) x')
    (there : x.isSome = true) (good : a.success = true) :
    ∃ p, entryOf x' name = some p ∧ p.processed = p.total := by
  obtain ⟨y, p, rfl, all⟩ := ran.finished a rfl good
  have some_y : y.isSome = true := by
    rw [← there, ← noted_isSome ran.noted, noteOn, Option.isSome_map]
  obtain ⟨progress, rfl⟩ := Option.isSome_iff_exists.mp some_y
  refine ⟨p, ?_, all⟩
  show (setNamed progress name p).lookup name = _
  rw [lookup_setNamed, if_pos rfl]

theorem turned_other {turns : List (String × Analysis)} (turned : Turned noteOn x turns x')
    (absent : tool ∉ turns.map (·.1)) : entryOf x' tool = entryOf x tool := by
  induction turned with
  | none => rfl
  | turn ran _ ih =>
    rw [List.map_cons, List.mem_cons, not_or] at absent
    rw [ih absent.2, noted_other absent.1 ran.noted]

/-- The last turn of a tool leaves its last note. -/
theorem turned_entry {before after : List (String × Analysis)} {a : Analysis}
    (turned : Turned noteOn x (before ++ (tool, a) :: after) x') (last : tool ∉ after.map (·.1))
    (there : x.isSome = true) (good : a.success = true) :
    ∃ p, entryOf x' tool = some p ∧ p.processed = p.total := by
  induction before generalizing x with
  | nil =>
    cases turned with
    | turn ran rest =>
      obtain ⟨p, entry, all⟩ := ran_entry ran there good
      exact ⟨p, (turned_other rest last).trans entry, all⟩
  | cons t before ih =>
    cases turned with
    | turn ran rest => exact ih rest (noted_isSome ran.noted ▸ there)

end

/-! ## The batch of a job -/

theorem noteProgress_owned (id name : String) (p : Progress) (x : Option (List (String × Progress))) :
    Work.Owned (shown id) (fun e x' => ∃ u, e = .ok u ∧ x' = noteOn x name p)
      (View.whole.work (noteProgress id name p)) x := by
  refine .work fun s hs => ⟨_, rfl, ?_⟩
  show ((changeJob _ id s.jobs).lookup id).map _ = _
  rw [lookup_changeJob, if_pos rfl, ← hs, noteOn, shown, Option.map_map, Option.map_map]
  rfl

/-- What the batch of a job comes to, and the progress that it leaves in the table. -/
theorem batch_owned (id : String) (o : BatchOrder) (x : Option (List (String × Progress))) :
    Work.Owned (shown id) (Hub.Answers noteOn o.tools x) (batch id o) x := by
  refine Hub.task_owned (fun s h => rfl) (noteProgress_owned id) (fun as => .work ?_) o.tools o.request x
  exact completeJob_within (R := fun s s' => shown id s' = shown id s) (fun _ _ => rfl)
    (fun _ _ _ first second => second.trans first) id o as

end LintHub.Http.Service
