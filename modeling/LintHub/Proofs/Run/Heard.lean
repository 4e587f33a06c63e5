import LintHub.Proofs.Files.Collected
import LintHub.Proofs.Run.Progress
import LintHub.Proofs.Run.Undisturbed

/-! # What is heard of a run

Of a run whose program is not found nothing is heard. Any other begins with a note that none of its
files is done, and ends with one that all of them are if it goes well; there are no others, whatever
those who listen do with them.
-/

namespace LintHub

open Bench

/-- The files that a run is about. -/
def Config.files (c : Config) (r : Request) (a : Adapter) (d : Disk) : Except Fault (List Path) := do
  let source ← Path.ofJson (c.targetFor r).sourcePath
  d.sources source a.extensions

/-- What the progress of a run rests on: what was heard before, the tool and its configuration,
whether a run goes on, whether the program is found, and which files there are. -/
structure Scene where
  heard : List Progress
  adapter : Adapter
  config : Option Config
  running : Bool
  found : Except Fault Bool
  files : Except Fault (List Path)

def Scene.of (c : Config) (r : Request) (heard : List Progress) (b : Bench) : Scene where
  heard
  adapter := b.runner.adapter
  config := b.runner.config
  running := b.runner.running
  found := (isAvailable.outcome b).1
  files := c.files r b.runner.adapter b.world.disk

/-- What was heard, and the tool. -/
def Scene.told (x : Scene) : List Progress × Adapter :=
  (x.heard, x.adapter)

/-- What is heard of the progress is kept apart from the bench, and nothing gets lost. -/
structure Listeners.Notes {σ : Type} (v : View σ Bench) (heard : σ → List Progress)
    (l : Listeners σ) : Prop where
  get_set : ∀ s b, v.get (v.set s b) = b
  heard_set : ∀ s b, heard (v.set s b) = heard s
  progress : ∃ f, l.progress = some f ∧ ∀ p x,
    Work.Owned (fun s => (heard s, (v.get s).runner.adapter)) (fun _ x' => x' = (x.1 ++ [p], x.2)) (f p) x
  output : ∀ f, l.output = some f → ∀ line, Work.Within
    (fun s s' => (heard s', (v.get s').runner.adapter) = (heard s, (v.get s).runner.adapter)) (f line)

/-! ## The way of a run -/

/-- What a run comes to, and what is heard of it. -/
inductive Hears (x : Scene) : Except Fault Analysis → List Progress → Prop where
  | unfound {e : Except Fault Analysis} (no : x.found ≠ .ok true) (bad : Unsuccessful e) : Hears x e []
  | uncounted {f : Fault} (found : x.found = .ok true) (fails : x.files = .error f) :
    Hears x (.error f) []
  | short {e : Except Fault Analysis} {files : List Path} (found : x.found = .ok true)
    (counted : x.files = .ok files) (bad : Unsuccessful e) : Hears x e [.starts x.adapter files.length]
  | full {e : Except Fault Analysis} {files : List Path} (found : x.found = .ok true)
    (counted : x.files = .ok files) (whole : Whole e) :
    Hears x e [.starts x.adapter files.length, .completes x.adapter files.length]

theorem looked_scene (c : Config) (r : Request) (heard : List Progress) (b : Bench) :
    Scene.of c r heard b.looked = Scene.of c r heard b := by
  simp only [Scene.of, outcome_isAvailable_eq, seen_looked]
  rfl

theorem opened_scene (c : Config) (r : Request) (heard : List Progress) (b : Bench) :
    Scene.of c r heard b.opened = { Scene.of c r heard b with running := true } := by
  simp only [Scene.of, outcome_isAvailable_eq]
  rfl

namespace Execution

theorem outcome_collect (c : Config) (r : Request) (a : Adapter) (b : Bench) :
    ∃ e : Except Fault (Path × List Path),
      (collect c r a).outcome b = (e, b) ∧ e.map (·.2) = c.files r a b.world.disk := by
  unfold collect Config.files
  rw [Act.outcome_bind, Act.outcome_except]
  cases Path.ofJson (c.targetFor r).sourcePath with
  | error f => exact ⟨_, rfl, rfl⟩
  | ok source =>
    dsimp only
    rw [Act.outcome_bind_ok (Act.outcome_get b), Act.outcome_bind, Act.outcome_except]
    cases listed : b.world.disk.sources source a.extensions with
    | error f => exact ⟨_, rfl, listed.symm⟩
    | ok files => exact ⟨_, rfl, listed.symm⟩

section
variable {σ : Type} {v : View σ Bench} {heard : σ → List Progress} {l : Listeners σ}
  {c : Config} {r : Request} {x : Scene}

/-- One step on the bench. -/
theorem step_owned {α : Type} {m : Act Bench α} {post : Except Fault α → Scene → Prop}
    (notes : l.Notes v heard)
    (steps : ∀ hs b, Scene.of c r hs b = x → post (m.outcome b).1 (Scene.of c r hs (m.outcome b).2)) :
    Work.Owned (fun s => Scene.of c r (heard s) (v.get s)) post (v.work m) x := by
  refine .work fun s here => ?_
  rw [notes.get_set, notes.heard_set]
  exact steps _ _ here

theorem isAvailable_owned (notes : l.Notes v heard) (x : Scene) :
    Work.Owned (fun s => Scene.of c r (heard s) (v.get s)) (fun e x' => x = x' ∧ e = x.found)
      (v.work isAvailable) x := by
  refine step_owned notes ?_
  rintro hs b rfl
  refine ⟨?_, rfl⟩
  rw [outcome_isAvailable_eq]
  exact (looked_scene c r hs b).symm

theorem collect_owned (notes : l.Notes v heard) (x : Scene) :
    Work.Owned (fun s => Scene.of c r (heard s) (v.get s))
      (fun e x' => x = x' ∧ e.map (·.2) = x.files) (v.work (collect c r x.adapter)) x := by
  refine step_owned notes ?_
  rintro hs b rfl
  obtain ⟨e, collects, files⟩ := outcome_collect c r b.runner.adapter b
  rw [show (Scene.of c r hs b).adapter = b.runner.adapter from rfl, collects]
  exact ⟨rfl, files⟩

/-- What is heard once the files are counted. -/
theorem proceed_heard (notes : l.Notes v heard) (started : Binary64) (source : Path)
    {files : List Path} (found : x.found = .ok true) (counted : x.files = .ok files) :
    Work.Owned (fun s => Scene.of c r (heard s) (v.get s))
      (fun e x' => ∃ told, x'.heard = x.heard ++ told ∧ Hears x e told)
      (proceed v c r l x.adapter started source files.length) x := by
  obtain ⟨listener, tells, takes⟩ := notes.progress
  have still s b (moves : Moves (v.get s) b) :
      (heard (v.set s b), (v.get (v.set s b)).runner.adapter) = (heard s, (v.get s).runner.adapter) := by
    rw [notes.heard_set, notes.get_set, moves.leaves.adapter]
  have ends := proceed_owned still (fun x a => x.2 = a) (fun _ => rfl) tells takes notes.output c r
    x.adapter started source files.length x.told
  have scenes : Work.Owned (fun s => Scene.of c r (heard s) (v.get s)) _ _ x :=
    .through (g := Scene.told) ends
  refine scenes.mono fun e x' ended => ?_
  generalize same : x'.told = told at ended
  cases ended with
  | short bad => exact ⟨_, congrArg Prod.fst same, .short found counted bad⟩
  | full tool whole =>
    cases tool
    exact ⟨_, (congrArg Prod.fst same).trans (List.append_assoc _ _ _), .full found counted whole⟩

/-- What is heard of a run, from its start to its end. -/
theorem run_heard (notes : l.Notes v heard) (x : Scene) :
    Work.Owned (fun s => Scene.of c r (heard s) (v.get s))
      (fun e x' => ∃ told, x'.heard = x.heard ++ told ∧ Hears x e told) (run v c r l) x := by
  have silent {e : Except Fault Analysis} (hears : Hears x e []) :
      ∃ told, x.heard = x.heard ++ told ∧ Hears x e told := ⟨[], (List.append_nil _).symm, hears⟩
  let look := fun s => Scene.of c r (heard s) (v.get s)
  have asked : Work.Owned look (fun e x' => ∃ a, e = .ok a ∧ x = x' ∧ a = x.adapter)
      (v.work adapter) x := by
    refine step_owned notes ?_
    rintro hs b rfl
    exact ⟨_, rfl, rfl, rfl⟩
  have timed : Work.Owned look (fun e x' => ∃ t, e = .ok t ∧ x = x')
      (v.work do return (← get).world.clock) x := by
    refine step_owned notes ?_
    rintro hs b rfl
    exact ⟨_, rfl, rfl⟩
  rw [run_eq]
  refine .bind_ok asked ?_
  rintro _ _ ⟨rfl, rfl⟩
  refine .bind_ok timed ?_
  rintro started _ rfl
  refine .bind (isAvailable_owned notes x) ?_ ?_
  · rintro found _ ⟨rfl, answer⟩
    cases found with
    | false =>
      refine step_owned notes ?_
      rintro hs b rfl
      exact silent (.unfound (answer ▸ nofun) fun a => failed_gives _ _ b a)
    | true =>
      refine .bind (collect_owned notes x) ?_ ?_
      · rintro ⟨source, files⟩ _ ⟨rfl, counted⟩
        exact proceed_heard notes started source answer.symm counted.symm
      · rintro f _ ⟨rfl, fails⟩
        exact silent (.uncounted answer.symm fails.symm)
  · rintro f _ ⟨rfl, answer⟩
    exact silent (.unfound (answer ▸ nofun) (.error f))

/-- What is heard of a run that is started on a tool that is free. -/
theorem start_heard (notes : l.Notes v heard) (configured : x.config = some c)
    (free : x.running = false) :
    Work.Owned (fun s => Scene.of c r (heard s) (v.get s))
      (fun e x' => ∃ told, x'.heard = x.heard ++ told ∧ Hears x (e >>= id) told) (start v r l) x := by
  let look := fun s => Scene.of c r (heard s) (v.get s)
  have asked : Work.Owned look (fun e x' => ∃ c', e = .ok c' ∧ x = x' ∧ c' = c)
      (v.work requireConfig) x := by
    refine step_owned notes ?_
    rintro hs b rfl
    rw [outcome_requireConfig configured]
    exact ⟨c, rfl, rfl, rfl⟩
  have tried : Work.Owned look (fun e x' => ∃ free, e = .ok free ∧ x' = { x with running := true } ∧
      free = true) (v.work tryStart) x := by
    refine step_owned notes ?_
    rintro hs b rfl
    have idle : b.runner.running = false := free
    rw [outcome_tryStart, idle]
    exact ⟨true, rfl, opened_scene c r hs b, rfl⟩
  unfold start
  refine .bind_ok asked ?_
  rintro _ _ ⟨rfl, rfl⟩
  refine .bind_ok tried ?_
  rintro _ _ ⟨rfl, rfl⟩
  rw [if_pos rfl]
  refine .bind_ok (.attempt (run_heard notes { x with running := true })) ?_
  rintro e x₁ ⟨told, all, hears⟩
  have busy : Hears x e told := by
    cases hears with
    | unfound no bad => exact .unfound no bad
    | uncounted found fails => exact .uncounted found fails
    | short found counted bad => exact .short found counted bad
    | full found counted whole => exact .full found counted whole
  have closed : Work.Owned look (fun e' x' => ∃ u, e' = .ok u ∧ x₁.heard = x'.heard)
      (v.work finish) x₁ := by
    refine step_owned notes ?_
    rintro hs b rfl
    exact ⟨(), rfl, rfl⟩
  refine .bind_ok closed ?_
  rintro _ x₂ same
  exact ⟨told, same.symm.trans all, busy⟩

end

end Execution

/-! ## The law -/

/-- A run that went well. -/
def Succeeds (e : Except Fault Analysis) : Prop :=
  ∃ a, e = .ok a ∧ a.success = true

/-- A run that does not fail for the time it took. -/
def Timely (e : Except Fault Analysis) : Prop :=
  ∀ f, e = .error f → ¬ f.OfTime

/-- What is told of a run over some files. -/
structure Announced (a : Adapter) (files : Int) (e : Except Fault Analysis) (told : List Progress) :
    Prop where
  first : told = [.starts a files] ∨ told = [.starts a files, .completes a files]
  both : Timely e → (told = [.starts a files, .completes a files] ↔ Succeeds e)
  bounded : ∀ p ∈ told, p.total = files ∧ 0 ≤ p.processed ∧ p.processed ≤ p.total
  ordered : told.Pairwise fun p q => p.processed ≤ q.processed
  ends : files ≠ 0 → Timely e →
    ((∃ p, told.getLast? = some p ∧ p.processed = p.total) ↔ Succeeds e)

/-- What a run comes to, and what is told of it. -/
structure ProgressLaw (x : Scene) (e : Except Fault Analysis) (told : List Progress) : Prop where
  unfound : x.found = .ok false → told = [] ∧ Unsuccessful e
  counted : ∀ files, x.found = .ok true → x.files = .ok files →
    Announced x.adapter files.length e told

theorem Whole.succeeds {e : Except Fault Analysis} (whole : Whole e) (timely : Timely e) :
    Succeeds e := by
  rcases whole with good | ⟨f, is, late⟩
  · exact good
  · exact absurd late (timely f is)

theorem Unsuccessful.not_succeeds {e : Except Fault Analysis} (bad : Unsuccessful e) : ¬ Succeeds e := by
  rintro ⟨a, is, good⟩
  rw [bad a is] at good
  cases good

theorem Announced.short {a : Adapter} {files : Nat} {e : Except Fault Analysis} (bad : Unsuccessful e) :
    Announced a files e [.starts a files] where
  first := .inl rfl
  both _ := iff_of_false (by simp) bad.not_succeeds
  bounded := by simp [Progress.starts]
  ordered := List.pairwise_singleton ..
  ends some _ := iff_of_false (by simpa [Progress.starts] using Ne.symm some) bad.not_succeeds

theorem Announced.full {a : Adapter} {files : Nat} {e : Except Fault Analysis} (whole : Whole e) :
    Announced a files e [.starts a files, .completes a files] where
  first := .inr rfl
  both timely := iff_of_true rfl (whole.succeeds timely)
  bounded := by simp [Progress.starts, Progress.completes]
  ordered := by simp [Progress.starts, Progress.completes]
  ends _ timely := iff_of_true ⟨_, rfl, rfl⟩ (whole.succeeds timely)

section
variable {x : Scene} {e : Except Fault Analysis} {told : List Progress}

/-- Where there are no files they are all done from the start. -/
theorem Hears.nothing_left (hears : Hears x e told) (found : x.found = .ok true)
    (none : x.files = .ok []) : ∃ p, told.getLast? = some p ∧ p.processed = p.total := by
  cases hears with
  | unfound no => exact absurd found no
  | uncounted _ fails => cases fails.symm.trans none
  | short _ counted =>
    cases counted.symm.trans none
    exact ⟨_, rfl, rfl⟩
  | full _ counted => exact ⟨_, rfl, rfl⟩

theorem Hears.uncounted_nil (hears : Hears x e told) {f : Fault} (fails : x.files = .error f) :
    told = [] := by
  cases hears with
  | unfound => rfl
  | uncounted => rfl
  | short _ counted => cases counted.symm.trans fails
  | full _ counted => cases counted.symm.trans fails

theorem Hears.law (hears : Hears x e told) : ProgressLaw x e told where
  unfound missing := by
    cases hears with
    | unfound no bad => exact ⟨rfl, bad⟩
    | uncounted found => cases missing.symm.trans found
    | short found => cases missing.symm.trans found
    | full found => cases missing.symm.trans found
  counted files found counted := by
    cases hears with
    | unfound no => exact absurd found no
    | uncounted _ fails => cases fails.symm.trans counted
    | short _ counts bad =>
      cases counts.symm.trans counted
      exact .short bad
    | full _ counts whole =>
      cases counts.symm.trans counted
      exact .full whole

end

namespace Execution

/-- Of a run whose program is not found nothing is heard. Of any other whose files can be counted two
notes are, or one: the second follows only if all goes well, but for the time that it took. -/
theorem progress_well_formed {σ : Type} {v : View σ Bench} {heard : σ → List Progress}
    {l : Listeners σ} (notes : l.Notes v heard) {c : Config} (r : Request) {x : Scene}
    (configured : x.config = some c) (free : x.running = false) :
    Work.Owned (fun s => Scene.of c r (heard s) (v.get s))
      (fun e x' => ∃ told, x'.heard = x.heard ++ told ∧ ProgressLaw x (e >>= id) told)
      (start v r l) x :=
  (start_heard notes configured free).mono fun _ _ ⟨told, all, hears⟩ => ⟨told, all, hears.law⟩

/-- A bench, and what was heard of its runs. -/
def overheard : View (Bench × List Progress) Bench :=
  ⟨fun s => s.1, fun s b => (b, s.2)⟩

/-- Notes what is told, and fails each time. -/
def noting : Listeners (Bench × List Progress) where
  progress := some fun p => do
    View.whole.work (modify fun s => (s.1, s.2 ++ [p]))
    throw (.foreign .runtime [.str "progress callback"])
  output := none

theorem noting_notes : noting.Notes overheard (·.2) where
  get_set _ _ := rfl
  heard_set _ _ := rfl
  progress := by
    refine ⟨_, rfl, fun p x => ?_⟩
    rintro s rfl
    rfl
  output f takes := nomatch takes

/-- Those who listen make no difference to what a run comes to. -/
theorem noting_start {b : Bench} {c : Config} (configured : b.runner.config = some c) (r : Request) :
    ((start overheard r noting).outcome (b, [])).1 =
      .ok ((execute View.whole r .nobody).outcome b).1 := by
  have apart : noting.Apart overheard := by
    constructor
    · rintro f ⟨⟩ p s
      rfl
    · rintro f ⟨⟩
  exact (start_undisturbed (s := (b, [])) (fun _ _ => rfl) apart (by rintro f ⟨⟩) configured).1

/-- One file in the working directory. -/
def oneFile : Disk :=
  ⟨[(["a.py"], .file [] false)], []⟩

/-- Ruff on some files, and a program that prints a report after some time. -/
def onDisk (disk : Disk) (report : String) (elapsed : Binary64) : Bench :=
  { printing report elapsed with world := { (printing report elapsed).world with disk } }

theorem onDisk_ends (disk : Disk) (report : String) (elapsed : Binary64) : ∃ ran,
    (runProgram worldView checkFile (Config.new .default .ruff "ruff").timeout).outcome
        ((onDisk disk report elapsed).begun "/usr/bin/ruff" checkFile) = (.ok ⟨0, report, ""⟩, ran) ∧
      ran.runner.adapter = .ruff ∧ ran.world.clock = Binary64.zero.add elapsed ∧
      ran.world.disk = disk :=
  ⟨_, rfl, rfl, rfl, rfl⟩

/-- The program ends at once, and its report is read. -/
theorem onDisk_concludes {disk : Disk} {files : List Path} (report : String)
    (listed : disk.sources (.ofText "a.py") Adapter.ruff.extensions = .ok files) :
    ∃ (ran : Bench) (fileCount : Int), ran.runner.adapter = .ruff ∧ ran.world.disk = disk ∧
      Measured .zero ran.world.clock ∧
      (execute View.whole aboutFile .nobody).outcome (onDisk disk report .zero) =
        ((conclude View.whole (.new .default .ruff "ruff") aboutFile .nobody .zero (.ofText "a.py")
          fileCount ⟨0, report, ""⟩).outcome ran).map id closed := by
  have prepared : Prepared (onDisk disk report .zero) (.new .default .ruff "ruff") aboutFile
      checkFile := ⟨rfl, rfl, _, rfl, rfl⟩
  have launches : Launches (onDisk disk report .zero) (.new .default .ruff "ruff") aboutFile
      "/usr/bin/ruff" (.ofText "a.py") := ⟨⟨rfl, rfl, by decide, rfl⟩, files, listed⟩
  obtain ⟨ran, ends, ruff, clock, same⟩ := onDisk_ends disk report .zero
  obtain ⟨fileCount, whole⟩ := launches.concludes prepared ends rfl
  refine ⟨ran, fileCount, ruff, same, ?_, whole⟩
  rw [clock]
  decide +kernel

theorem unkept : ((Config.new .default .ruff "ruff").targetFor aboutFile).outputFile.isBlank = true :=
  rfl

theorem oneFile_listed : oneFile.sources (.ofText "a.py") Adapter.ruff.extensions =
    .ok [.ofText "a.py"] :=
  Disk.sources_file (by decide) rfl rfl

theorem noFile_listed : (Disk.empty []).sources (.ofText "a.py") Adapter.ruff.extensions = .ok [] :=
  Disk.sources_absent (by decide) rfl _

/-- An empty report is one without findings. -/
theorem oneFile_succeeds : ∃ a,
    ((execute View.whole aboutFile .nobody).outcome (onDisk oneFile "" .zero)).1 = .ok a ∧
      a.success = true := by
  obtain ⟨ran, fileCount, ruff, -, measured, whole⟩ := onDisk_concludes "" oneFile_listed
  have read : RuffReport.issuesOf ran.world.disk (some (.ofText "a.py")) "" = .ok [] :=
    bind_ok_iff.mpr ⟨.arr [], rfl, rfl⟩
  have usable := outcome_judge_ruff (.ofText "a.py") ⟨0, "", ""⟩ ruff unkept
  rw [read] at usable
  obtain ⟨a, told, answer, well, -⟩ := conclude_succeeds fileCount usable measured
  rw [whole, answer]
  exact ⟨a, rfl, well⟩

/-- What is no list of findings is no report. -/
theorem noFile_fails : ∃ a,
    ((execute View.whole aboutFile .nobody).outcome (onDisk (.empty []) "0" .zero)).1 = .ok a ∧
      a.success = false := by
  obtain ⟨ran, fileCount, ruff, -, measured, whole⟩ := onDisk_concludes "0" noFile_listed
  have parsed : Json.read "0" = .ok (.int 0) := by rfl
  have read : RuffReport.issuesOf ran.world.disk (some (.ofText "a.py")) "0" =
      .error .notDiagnostics := by
    unfold RuffReport.issuesOf
    rw [show (if "0".isEmpty then "[]" else "0") = "0" by decide, parsed]
    rfl
  rw [outcome_conclude, outcome_judge_ruff (.ofText "a.py") ⟨0, "0", ""⟩ ruff unkept, read] at whole
  obtain ⟨a, answer, bad, -⟩ := outcome_failed measured
    s!"Could not parse {ran.runner.adapter.name} output: {Fault.notDiagnostics.message}"
  exact ⟨a, congrArg Prod.fst (whole.trans (congrArg (Prod.map id closed) answer)), bad⟩

/-- One file is checked, although nobody takes what is told. -/
theorem progress_well_formed_oneFile :
    ((start overheard aboutFile noting).outcome (onDisk oneFile "" .zero, [])).2.2 =
      [⟨1, 0, "", "Starting ruff"⟩, ⟨1, 1, "", "ruff completed"⟩] := by
  obtain ⟨a, answer, good⟩ := oneFile_succeeds
  have owned := progress_well_formed (c := .new .default .ruff "ruff") noting_notes aboutFile
    (x := Scene.of (.new .default .ruff "ruff") aboutFile [] (onDisk oneFile "" .zero)) rfl rfl
  obtain ⟨told, all, law⟩ := owned.outcome (s := (onDisk oneFile "" .zero, []))
  have came : ((start overheard aboutFile noting).outcome (onDisk oneFile "" .zero, [])).1 =
      .ok (.ok a) := by
    rw [noting_start rfl, answer]
  have counted := law.counted [.ofText "a.py"] rfl oneFile_listed
  rw [came] at counted
  have timely : Timely (Except.ok (Except.ok a) >>= id) := fun _ bad => nomatch bad
  exact all.trans ((counted.both timely).mpr ⟨a, rfl, good⟩)

/-- A request to look at a file whose name is too long. -/
def aboutLongName : Request :=
  ⟨.str longName, .str "", [], [], []⟩

theorem targetFor_named (c : Config) {r : Request} {name : String} (asks : r.sourcePath = .str name)
    (named : name.isEmpty = false) : (c.targetFor r).sourcePath = .str name := by
  unfold Config.targetFor Json.orElse
  rw [asks, Json.isBlank, named]
  rfl

theorem longName_uncounted (c : Config) (a : Adapter) (d : Disk) :
    c.files aboutLongName a d = .error (.refused .nameTooLong longName) := by
  have named : longName.isEmpty = false := by decide +kernel
  unfold Config.files
  rw [targetFor_named c rfl named]
  exact bind_error_iff.mpr (.inr ⟨Path.ofText longName, rfl, Disk.sources_refused (longName_refused d)⟩)

section
variable {b : Bench} {c : Config} {r : Request} (configured : b.runner.config = some c)
  (free : b.runner.running = false)
include configured free

theorem noting_hears : ∃ told, ((start overheard r noting).outcome (b, [])).2.2 = told ∧
    Hears (Scene.of c r [] b) (((start overheard r noting).outcome (b, [])).1 >>= id) told :=
  (start_heard (c := c) (r := r) (x := Scene.of c r [] b) noting_notes configured free).outcome
    (s := (b, []))

theorem nothing_left (found : (isAvailable.outcome b).1 = .ok true)
    (none : c.files r b.runner.adapter b.world.disk = .ok []) :
    ∃ p, ((start overheard r noting).outcome (b, [])).2.2.getLast? = some p ∧ p.processed = p.total := by
  obtain ⟨told, all, hears⟩ := noting_hears (r := r) configured free
  rw [all]
  exact hears.nothing_left found none

theorem uncounted_unheard {f : Fault} (fails : c.files r b.runner.adapter b.world.disk = .error f) :
    ((start overheard r noting).outcome (b, [])).2.2 = [] := by
  obtain ⟨told, all, hears⟩ := noting_hears (r := r) configured free
  exact all.trans (hears.uncounted_nil fails)

end

/-- A run that fails may have told that all of its files are done, if there are none, and nothing is
told where the files cannot be counted. -/
theorem not_every_full_count_is_a_success :
    ¬ (∀ (l : Listeners (Bench × List Progress)) (b : Bench) (c : Config) (r : Request),
        l.Notes overheard (·.2) → b.runner.config = some c → b.runner.running = false →
        (isAvailable.outcome b).1 = .ok true →
        (∃ p, ((start overheard r l).outcome (b, [])).2.2.getLast? = some p ∧
          p.processed = p.total) →
        Succeeds (((start overheard r l).outcome (b, [])).1 >>= id)) ∧
      ¬ ∀ (l : Listeners (Bench × List Progress)) (b : Bench) (c : Config) (r : Request),
        l.Notes overheard (·.2) → b.runner.config = some c → b.runner.running = false →
        (isAvailable.outcome b).1 = .ok true →
        ((start overheard r l).outcome (b, [])).2.2 ≠ [] := by
  constructor
  · intro claim
    obtain ⟨a, answer, bad⟩ := noFile_fails
    have failed : Unsuccessful (((start overheard aboutFile noting).outcome
        (onDisk (.empty []) "0" .zero, [])).1 >>= id) := by
      rw [noting_start rfl, answer]
      rintro _ ⟨⟩
      exact bad
    exact failed.not_succeeds (claim noting _ _ aboutFile noting_notes rfl rfl rfl
      (nothing_left rfl rfl rfl noFile_listed))
  · intro claim
    exact claim noting (onDisk (.empty []) "" .zero) _ aboutLongName noting_notes rfl rfl rfl
      (uncounted_unheard rfl rfl (longName_uncounted _ _ _))

end Execution

end LintHub
