import LintHub.Proofs.Batch.Bounds
import LintHub.Proofs.Run.Noted

/-! # The progress of a batch

The listener of a batch notes the progress of each tool under its name. `Turned` says what is left of
the notes after the turns of a batch: each turn adds notes under its own name only, and the last of
them says that all files are done if the turn went well.
-/

namespace LintHub

variable {σ τ : Type}

/-- What is left of `x` after the turns of a batch, each of a name and with its analysis. -/
inductive Turned (note : τ → String → Progress → τ) : τ → List (String × Analysis) → τ → Prop where
  | none (x : τ) : Turned note x [] x
  | turn {x y z : τ} {name : String} {a : Analysis} {turns : List (String × Analysis)}
    (ran : Ran (fun x p => note x name p) x (.ok a) y) (rest : Turned note y turns z) :
    Turned note x ((name, a) :: turns) z

theorem Analysis.explained_success (a : Analysis) : a.explained.success = a.success := by
  unfold explained
  split <;> rfl

namespace Hub

theorem failed_gives (name message : String) :
    Act.Gives (fun a => a.success = false) (failed name message) :=
  .bind fun _ => .pure rfl

/-- What is left of the notes when a batch answers: its turns have been taken, in the order of some of
its names. -/
def Answers (note : τ → String → Progress → τ) (names : List String) (x : τ)
    (e : Except Fault (List Analysis)) (x' : τ) : Prop :=
  ∀ as, e = .ok as → ∃ turns, turns.map (·.2) = as ∧ (turns.map (·.1)).Sublist names ∧
    Turned note x turns x'

section
variable {note : τ → String → Progress → τ} {names : List String} {x : τ}

theorem Answers.error (f : Fault) (x' : τ) : Answers note names x (.error f) x' :=
  fun _ bad => nomatch bad

theorem Answers.nothing : Answers note names x (.ok []) x := by
  rintro _ ⟨⟩
  exact ⟨[], rfl, List.nil_sublist _, .none x⟩

theorem Answers.skip {name : String} {e : Except Fault (List Analysis)} {x' : τ}
    (rest : Answers note names x e x') : Answers note (name :: names) x e x' := by
  intro as is
  obtain ⟨turns, same, order, turned⟩ := rest as is
  exact ⟨turns, same, order.cons _, turned⟩

theorem Answers.turn {name : String} {a : Analysis} {as : List Analysis} {y x' : τ}
    (ran : Ran (fun x p => note x name p) x (.ok a) y) (rest : Answers note names y (.ok as) x') :
    Answers note (name :: names) x (.ok (a :: as)) x' := by
  rintro _ ⟨⟩
  obtain ⟨turns, rfl, order, turned⟩ := rest as rfl
  exact ⟨(name, a) :: turns, rfl, order.cons_cons _, .turn ran turned⟩

end

section
variable {v : View σ Hub} {look : σ → τ} (hv : ∀ s h, look (v.set s h) = look s)
variable {note : τ → String → Progress → τ} {listener : BatchListener σ}
variable (hl : ∀ name p x,
  Work.Owned look (fun e x' => ∃ u, e = .ok u ∧ x' = note x name p) (listener name p) x)
include hv hl

theorem playAloud_owned (name : String) (i : ToolId) (t : ScriptedTool) (r : Request) (x : τ) :
    Work.Owned look (fun e x' => Ran (fun x p => note x name p) x (e >>= id) x')
      (playAloud v i t r (listener name)) x := by
  unfold playAloud
  refine .bind_ok (hl name ⟨t.script.files, 0, "", "start"⟩ x) ?_
  rintro _ _ rfl
  have plays : Work.Within (fun s s' => look s' = look s) (play v i t r) :=
    play_bounded (fun s h _ _ => hv s h) i t r
  refine .after (.attempt plays) (fun e => ?_) fun f => .begun (.idle (.error f))
  cases e with
  | error f => exact Ran.begun (.idle (.error f))
  | ok a =>
    refine .bind_ok (hl name ⟨t.script.files, t.script.files, "", "done"⟩ _) ?_
    rintro _ _ rfl
    exact Ran.begun (.completed .none rfl)

theorem start_owned (name : String) (i : ToolId) (r : Request) (x : τ) :
    Work.Owned look (fun e x' => Ran (fun x p => note x name p) x (e >>= id) x')
      (start v i r ⟨some (listener name), none⟩) x := by
  unfold start
  refine .after (.work fun s => hv s _) (fun t => ?_) fun f => .idle (.error f)
  cases t with
  | scripted t => exact playAloud_owned hv hl name i t r x
  | external runner => exact Execution.start_owned (fun s b => hv s _) (hl name) r x

theorem checkAndRun_owned (name : String) (i : ToolId) (r : Request) (x : τ) :
    Work.Owned look (Ran (fun x p => note x name p) x) (checkAndRun v name i r (some listener)) x := by
  unfold checkAndRun
  refine .after (.work fun s => hv s _) (fun checked => ?_) fun f => .idle (.error f)
  refine .after (.forM fun w => .work fun s => hv s _) (fun _ => ?_) fun f => .idle (.error f)
  split
  · refine (Work.Owned.aside hv (P := Unsuccessful) (failed_gives _ _) x).mono ?_
    rintro e _ ⟨rfl, bad⟩
    exact .idle bad
  · refine .after (.work fun s => hv s _) (fun _ => ?_) fun f => .idle (.error f)
    exact .bind (start_owned hv hl name i r x) (fun e x' ran => ran) fun f x' ran => ran

theorem runTool_owned (name : String) (i : ToolId) (r : Request) (x : τ) :
    Work.Owned look
      (fun e x' => ∃ a, e = .ok a ∧ Ran (fun x p => note x name p) x (.ok a) x')
      (runTool v name i r (some listener)) x := by
  unfold runTool
  refine .bind_ok (.attempt (checkAndRun_owned hv hl name i r x)) fun e x' ran => ?_
  cases e with
  | ok a =>
    refine ⟨a.explained, rfl, ran.noted, ?_⟩
    rintro _ ⟨⟩ good
    exact ran.finished a rfl (a.explained_success ▸ good)
  | error f =>
    refine .work fun s hs => ⟨_, rfl, ?_⟩
    rw [hv, hs]
    exact .unsuccessful ran.noted (by rintro _ ⟨⟩; rfl)

theorem runNames_owned (r : Request) (names : List String) (x : τ) :
    Work.Owned look (Answers note names x) (runNames v r (some listener) names) x := by
  induction names generalizing x with
  | nil => exact Answers.nothing
  | cons name names ih =>
    rw [runNames]
    refine .after (.work fun s => hv s _) (fun stops => ?_) fun f => .error f x
    split
    · exact Answers.nothing
    · refine .after (.work fun s => hv s _) (fun ready => ?_) fun f => .error f x
      cases ready with
      | none => exact (ih x).mono fun _ _ => .skip
      | some i =>
        refine .after (.ofExcept _) (fun own => ?_) fun f => .error f x
        refine .bind_ok (runTool_owned hv hl name i own x) fun a y ran => ?_
        refine .bind (ih y) (fun as x' rest => ?_) fun f x' _ => .error f x'
        exact .turn ran rest

theorem executeBatch_owned (names : List String) (r : Request) (x : τ) :
    Work.Owned look (Answers note names x) (executeBatch v names r (some listener)) x := by
  unfold executeBatch
  refine .after (.work fun s => hv s _) (fun _ => ?_) fun f => .error f x
  refine .bind_ok (.attempt (runNames_owned hv hl r names x)) fun e x' answers => ?_
  exact .after (.work fun s => hv s _) (fun _ => answers) fun f => .error f x'

theorem task_owned {completion : List Analysis → Work σ Unit}
    (hc : ∀ as, Work.Within (fun s s' => look s' = look s) (completion as)) (names : List String)
    (r : Request) (x : τ) :
    Work.Owned look (Answers note names x) (task v names r (some listener) (some completion)) x := by
  have whole : Work.Owned look (Answers note names x) (do
      v.work (checkNames names)
      executeBatch v names r (some listener)) x :=
    .after (.work fun s => hv s _) (fun _ => executeBatch_owned hv hl names r x) fun f => .error f x
  unfold task
  refine .bind_ok (.attempt whole) fun e x' answers => ?_
  cases e with
  | ok as => exact .after (hc as) (fun _ => answers) fun f => .error f x'
  | error f =>
    refine .after (.work fun s => hv s _) (fun _ => ?_) fun f => .error f x'
    exact .after (hc []) (fun _ => answers) fun f => .error f x'

end

end Hub

end LintHub
