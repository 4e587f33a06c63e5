import LintHub.Hub.Basic
import LintHub.Proofs.Run.Leeway
import LintHub.Proofs.Run.Replay

/-! # What is checked is what is run

A path that the request gives stands before the configured one wherever a tool looks for it: in the
check, on the command line, in the files that are listed, in what findings are relative to, and in
the report. A configured path that is overridden therefore has no influence on any of them.
-/

namespace LintHub

open Execution

variable {b : Bench} {c c' : Config} {r r' : Request}

/-! ## Orders that are the same -/

/-- The request with the paths that it is about written out. -/
def Request.onto (r : Request) (c : Config) : Request :=
  { r with sourcePath := (c.targetFor r).sourcePath, outputFile := (c.targetFor r).outputFile }

def Config.pathless (c : Config) : Config :=
  { c with sourcePath := "", outputFile := "" }

namespace SameOrder

theorem of_target (target : c.targetFor r = c'.targetFor r')
    (options : r.toolOptions = r'.toolOptions) (other : c'.pathless = c.pathless) :
    SameOrder r r' c c' := by
  have equal {α : Type} (f : Config → α) (same : ∀ c : Config, f c = f c.pathless) :
      f c = f c' := by
    rw [same c, same c', other]
  exact ⟨target, options, equal (·.toolName) fun _ => rfl, equal (·.customOptions) fun _ => rfl,
    equal (·.timeout) fun _ => rfl, equal (·.special) fun _ => rfl⟩

theorem source (given : r.sourcePath.isBlank = false) (c : Config) (s : String) :
    SameOrder r r c { c with sourcePath := s } := by
  refine of_target ?_ rfl rfl
  simp [Config.targetFor, Json.orElse, given]

theorem output (given : r.outputFile.isBlank = false) (c : Config) (s : String) :
    SameOrder r r c { c with outputFile := s } := by
  refine of_target ?_ rfl rfl
  simp [Config.targetFor, Json.orElse, given]

theorem configuredSource (blank : r.sourcePath.isBlank = true) (c : Config) :
    SameOrder r { r with sourcePath := .str c.sourcePath } c c := by
  refine of_target ?_ rfl rfl
  simp [Config.targetFor, Json.orElse, blank]

theorem configuredOutput (blank : r.outputFile.isBlank = true) (c : Config) :
    SameOrder r { r with outputFile := .str c.outputFile } c c := by
  refine of_target ?_ rfl rfl
  simp [Config.targetFor, Json.orElse, blank]

/-- Nothing but the paths that the request is about is left of those that are configured. -/
theorem onto (c : Config) (r : Request) : SameOrder r (r.onto c) c c.pathless := by
  have kept (v : Json) (s : String) : (v.orElse (.str s)).orElse (.str "") = v.orElse (.str s) := by
    unfold Json.orElse
    split
    · split
      · next blank =>
        have empty : s = "" := by simpa [Json.isBlank] using blank
        rw [empty]
      · rfl
    · rfl
  refine of_target ?_ rfl rfl
  simp only [Config.targetFor, Request.onto, Config.pathless]
  rw [kept, kept]

end SameOrder

/-! ## Tools that are used alike -/

/-- The bench with another configuration. -/
def Bench.reconfigured (b : Bench) (c : Config) : Bench :=
  { b with runner := { b.runner with config := some c } }

/-- Another configuration and another request change nothing in what a tool is told when it is
checked, commanded and run, nor in what it does. -/
structure UsedAlike (b : Bench) (r : Request) (c' : Config) (r' : Request) : Prop where
  validation : Tool.validateFor b.world.disk (.external (b.reconfigured c').runner) r' =
    Tool.validateFor b.world.disk (.external b.runner) r
  commandLine : (Bench.commandLine r').outcome (b.reconfigured c') =
    ((Bench.commandLine r).outcome b).map id (·.reconfigured c')
  execution : (execute View.whole r' .nobody).outcome (b.reconfigured c') =
    ((execute View.whole r .nobody).outcome b).map id (·.reconfigured c')

theorem SameOrder.validation (same : SameOrder r r' c c') (disk : Disk) :
    c.validateFor disk (c.targetFor r) = c'.validateFor disk (c'.targetFor r') := by
  unfold Config.validateFor
  rw [same.target, same.toolName, same.timeout, same.special]

theorem Tool.validateFor_external {disk : Disk} {runner : Runner}
    (configured : runner.config = some c) :
    validateFor disk (.external runner) r = c.validateFor disk (c.targetFor r) := by
  obtain ⟨adapter, config, running, cancelled, path, version⟩ := runner
  cases configured
  rfl

/-- Benches that differ in one configuration for another. -/
def Leeway.between (same : SameOrder r r' c c') : Leeway r r' :=
  configs fun {o o'} (configured : o = some c ∧ o' = some c') => by
    rw [configured.1, configured.2]
    exact .some same

theorem Leeway.between_alike_iff {same : SameOrder r r' c c'} {b' : Bench} :
    (between same).Alike b b' ↔ b.runner.config = some c ∧ b' = b.reconfigured c' := by
  constructor
  · rintro ⟨⟨configured, rfl⟩, rfl⟩
    exact ⟨configured, rfl⟩
  · rintro ⟨configured, rfl⟩
    exact ⟨⟨configured, rfl⟩, rfl⟩

theorem Listeners.nobody_hearing {σ τ : Type} {k : Leeway r r'} {R : σ → τ → Prop}
    {u : View σ Bench} {u' : View τ Bench} : Hearing k R u u' .nobody .nobody where
  progress _ := .pure ()
  output _ _ _ alike := alike

theorem SameOrder.usedAlike (same : SameOrder r r' c c') (configured : b.runner.config = some c) :
    UsedAlike b r c' r' := by
  have alike : (Leeway.between same).Alike b (b.reconfigured c') :=
    Leeway.between_alike_iff.mpr ⟨configured, rfl⟩
  refine ⟨?_, ?_, ?_⟩
  · rw [Tool.validateFor_external configured, same.validation]
    exact Tool.validateFor_external rfl
  · obtain ⟨answer, left⟩ := Bench.commandLine_alike b _ alike
    exact Prod.ext answer.symm (Leeway.between_alike_iff.mp left).2
  · obtain ⟨answer, left⟩ := execute_alike .whole Listeners.nobody_hearing b _ alike
    exact Prod.ext answer.symm (Leeway.between_alike_iff.mp left).2

/-! ## Where the paths are used -/

namespace Validation

/-- A check that went well on top of errors cannot be. -/
def Keeps (check : Validation → Except Fault Validation) : Prop :=
  ∀ v v', check v = .ok v' → v'.isValid = true → v.isValid = true

theorem not_isValid_error (v : Validation) (message : String) :
    (v.error message).isValid = false := by
  simp [isValid, error]

theorem Keeps.bind {check check' : Validation → Except Fault Validation} (h : Keeps check)
    (h' : Keeps check') : Keeps fun v => check v >>= check' := by
  intro v v₂ ends valid
  obtain ⟨v₁, first, second⟩ := bind_ok_iff.mp ends
  exact h v v₁ first (h' v₁ v₂ second valid)

theorem Keeps.foldlM {α : Type} {check : Validation → α → Except Fault Validation}
    (h : ∀ x, Keeps fun v => check v x) (xs : List α) : Keeps fun v => xs.foldlM check v := by
  induction xs with
  | nil =>
    rintro v _ ⟨⟩ valid
    exact valid
  | cons x xs ih => exact (h x).bind ih

end Validation

namespace Config

open Validation

variable {disk : Disk} {source output : Json} {v v' : Validation}

theorem checkInclude_keeps (disk : Disk) (path : Json) :
    Keeps fun v => checkInclude disk v path := by
  intro v v' checked valid
  obtain ⟨p, -, checked⟩ := bind_ok_iff.mp checked
  obtain ⟨there, -, checked⟩ := bind_ok_iff.mp checked
  cases there <;> cases checked <;> exact valid

theorem checkDefinition_keeps (definition : Json) :
    Keeps fun v => checkDefinition v definition := by
  intro v v' checked valid
  unfold checkDefinition at checked
  split at checked
  · cases checked
    exact valid
  · obtain ⟨spaced, -, checked⟩ := bind_ok_iff.mp checked
    cases spaced <;> cases checked <;> exact valid

theorem isValid_foldl_warning {α : Type} (message : α → String) (xs : List α) (v : Validation) :
    (xs.foldl (fun v x => v.warning (message x)) v).isValid = v.isValid := by
  induction xs generalizing v with
  | nil => rfl
  | cons x xs ih => exact ih _

theorem isValid_of_ite {p : Prop} [Decidable p] {v w : Validation}
    (valid : (if p then v else w).isValid = true) (keeps : w.isValid = true → v.isValid = true) :
    v.isValid = true := by
  split at valid
  · exact valid
  · exact keeps valid

theorem isValid_of_error {message : String} (valid : (v.error message).isValid = true) :
    v.isValid = true := by
  simp [not_isValid_error] at valid

theorem checkRuff_keeps (o : RuffOptions) (valid : (checkRuff o v).isValid = true) :
    v.isValid = true := by
  unfold checkRuff at valid
  have told := isValid_of_ite valid id
  rw [isValid_foldl_warning] at told
  revert told
  cases o.lineLength with
  | none =>
    cases o.targetVersion with
    | none => exact id
    | some s => exact fun told => isValid_of_ite told isValid_of_error
  | some n =>
    cases o.targetVersion with
    | none => exact fun told => isValid_of_ite told isValid_of_error
    | some s =>
      exact fun told => isValid_of_ite (isValid_of_ite told isValid_of_error) isValid_of_error

theorem checkBandit_keeps (o : BanditOptions) (valid : (checkBandit o v).isValid = true) :
    v.isValid = true := by
  unfold checkBandit at valid
  have told := isValid_of_ite valid id
  rw [isValid_foldl_warning] at told
  exact isValid_of_ite (isValid_of_ite told isValid_of_error) isValid_of_error

theorem checkSpecialRules_keeps (special : Special)
    (valid : (checkSpecialRules special v).isValid = true) : v.isValid = true := by
  cases special with
  | base => exact valid
  | ruff o => exact checkRuff_keeps o valid
  | bandit o => exact checkBandit_keeps o valid

/-- A source that passes is there. -/
theorem checkSource_passes (checked : checkSource disk source v = .ok v')
    (valid : v'.isValid = true) :
    v.isValid = true ∧ ∃ p, Path.ofJson source = .ok p ∧ disk.exists p = .ok true := by
  unfold checkSource at checked
  split at checked
  · cases checked
    simp [not_isValid_error] at valid
  · obtain ⟨p, named, checked⟩ := bind_ok_iff.mp checked
    obtain ⟨there, looked, checked⟩ := bind_ok_iff.mp checked
    cases there with
    | true =>
      cases checked
      exact ⟨valid, p, named, looked⟩
    | false =>
      cases checked
      simp [not_isValid_error] at valid

/-- An output that passes is none, or the directory for it is there. -/
theorem checkOutput_passes (checked : checkOutput disk output v = .ok v')
    (valid : v'.isValid = true) :
    v.isValid = true ∧ (output.isBlank = true ∨ ∃ p, Path.ofJson output = .ok p ∧
      (p.parent.text = "." ∨ disk.exists p.parent = .ok true)) := by
  unfold checkOutput at checked
  split at checked
  · next blank =>
    cases checked
    exact ⟨valid, .inl blank⟩
  · obtain ⟨p, named, checked⟩ := bind_ok_iff.mp checked
    dsimp only at checked
    split at checked
    · next here =>
      cases checked
      exact ⟨valid, .inr ⟨p, named, .inl (by simpa using here)⟩⟩
    · obtain ⟨there, looked, checked⟩ := bind_ok_iff.mp checked
      cases there with
      | true =>
        cases checked
        exact ⟨valid, .inr ⟨p, named, .inr looked⟩⟩
      | false =>
        cases checked
        simp [not_isValid_error] at valid

/-- What a target that passes has: its source and the directory of its output. -/
theorem validateFor_passes {t : Target} (checked : c.validateFor disk t = .ok v)
    (valid : v.isValid = true) :
    (∃ p, Path.ofJson t.sourcePath = .ok p ∧ disk.exists p = .ok true) ∧
      (t.outputFile.isBlank = true ∨ ∃ p, Path.ofJson t.outputFile = .ok p ∧
        (p.parent.text = "." ∨ disk.exists p.parent = .ok true)) := by
  unfold validateFor at checked
  obtain ⟨v₁, source, checked⟩ := bind_ok_iff.mp checked
  obtain ⟨v₂, output, checked⟩ := bind_ok_iff.mp checked
  obtain ⟨v₃, includes, checked⟩ := bind_ok_iff.mp checked
  obtain ⟨v₄, definitions, checked⟩ := bind_ok_iff.mp checked
  cases checked
  have valid₄ : v₄.isValid = true := by
    have timed := checkSpecialRules_keeps c.special valid
    split at timed
    · simp [not_isValid_error] at timed
    · exact timed
  have valid₃ := Keeps.foldlM checkDefinition_keeps t.definitions v₃ v₄ definitions valid₄
  have valid₂ := Keeps.foldlM (checkInclude_keeps disk) t.includePaths v₂ v₃ includes valid₃
  obtain ⟨valid₁, placed⟩ := checkOutput_passes output valid₂
  exact ⟨(checkSource_passes source valid₁).2, placed⟩

end Config

namespace Execution

open Bench

variable {disk : Disk} {path : String} {args : List Json}

/-- The command line of a tool says what to look at and, where the tool writes its report itself,
the file to write. -/
inductive Carries (disk : Disk) (t : Target) : Special → List Json → Prop where
  | ruff {o : RuffOptions} {program : Json} {rest : List Json} :
    Carries disk t (.ruff o) (program :: .str "check" :: t.sourcePath :: rest)
  | printed {o : BanditOptions} {program : Json} {rest : List Json}
    (blank : t.outputFile.isBlank = true) :
    Carries disk t (.bandit o)
      (program :: .str "-r" :: t.sourcePath :: .str "-f" :: .str "json" :: rest)
  | filed {o : BanditOptions} {program : Json} {rest : List Json} {p q : Path}
    (given : t.outputFile.isBlank = false) (named : Path.ofJson t.outputFile = .ok p)
    (resolved : disk.resolve p = .ok q) :
    Carries disk t (.bandit o)
      (program :: .str "-r" :: t.sourcePath :: .str "-f" :: .str "json" :: .str "-o" ::
        .str q.text :: rest)

theorem arguments_carry (special : c.kind ≠ .base) (built : b.arguments c r path = .ok args) :
    Carries b.world.disk (c.targetFor r) c.special args := by
  obtain ⟨own, owned, built⟩ := bind_ok_iff.mp built
  obtain ⟨configured, -, built⟩ := bind_ok_iff.mp built
  obtain ⟨requested, -, built⟩ := bind_ok_iff.mp built
  cases built
  unfold ownArguments at owned
  unfold Config.kind at special
  cases kind : c.special with
  | base =>
    rw [kind] at special
    exact (special rfl).elim
  | ruff o =>
    rw [kind] at owned
    cases owned
    exact .ruff
  | bandit o =>
    rw [kind] at owned
    obtain ⟨report, reported, owned⟩ := bind_ok_iff.mp owned
    cases owned
    unfold reportOption at reported
    split at reported
    · next blank => exact .printed blank
    · next given =>
      obtain ⟨p, named, reported⟩ := bind_ok_iff.mp reported
      obtain ⟨q, resolved, reported⟩ := bind_ok_iff.mp reported
      cases reported
      exact .filed (by simpa using given) named resolved

/-- A run that went well: its files were listed under the source, its program was told of the
source, its findings are relative to the source, and its report was written to the output or read
there. -/
inductive UsesTarget (b : Bench) (c : Config) (r : Request) (a : Analysis) : Prop where
  | mk {path : String} {source : Path} {files : List Path} {args : List Json} {texts : List String}
    {done : Finished} {ran kept judged : Bench} {text : String} {count : Option Int}
    (found : (executablePath.outcome b).1 = .ok path)
    (named : Path.ofJson (c.targetFor r).sourcePath = .ok source)
    (listed : b.world.disk.sources source b.runner.adapter.extensions = .ok files)
    (commanded : ((commandLine r).outcome b).1 = .ok args) (textual : textsFrom 0 args = .ok texts)
    (carries : Carries b.world.disk (c.targetFor r) c.special args)
    (ends : (runProgram worldView texts c.timeout).outcome (b.begun path texts) = (.ok done, ran))
    (taken : Taken ran (c.targetFor r).outputFile done.stdout b.runner.adapter text kept)
    (read : (Bench.readReport (some source) text).outcome kept = (.ok (a.issues, count), judged))

/-- What is validated is what is run: a path of the request hides the configured one, an empty one
leaves it in force, and nothing else is left of the configured paths. -/
structure TargetLaw (b : Bench) (c : Config) (r : Request) : Prop where
  hidesSource : r.sourcePath.isBlank = false → ∀ s, UsedAlike b r { c with sourcePath := s } r
  hidesOutput : r.outputFile.isBlank = false → ∀ s, UsedAlike b r { c with outputFile := s } r
  leavesSource : r.sourcePath.isBlank = true →
    UsedAlike b r c { r with sourcePath := .str c.sourcePath }
  leavesOutput : r.outputFile.isBlank = true →
    UsedAlike b r c { r with outputFile := .str c.outputFile }
  onto : UsedAlike b r c.pathless (r.onto c)
  validated : ∀ v, Tool.validateFor b.world.disk (.external b.runner) r = .ok v → v.isValid = true →
    (∃ p, Path.ofJson (c.targetFor r).sourcePath = .ok p ∧ b.world.disk.exists p = .ok true) ∧
      ((c.targetFor r).outputFile.isBlank = true ∨
        ∃ p, Path.ofJson (c.targetFor r).outputFile = .ok p ∧
          (p.parent.text = "." ∨ b.world.disk.exists p.parent = .ok true))
  commanded : ∀ args, ((commandLine r).outcome b).1 = .ok args →
    Carries b.world.disk (c.targetFor r) c.special args
  run : ∀ a, ((execute View.whole r .nobody).outcome b).1 = .ok a → a.success = true →
    UsesTarget b c r a

theorem Course.usesTarget {a : Analysis} {after : Bench} (course : Course b c r a after)
    (configured : b.runner.config = some c) (special : c.kind ≠ .base) : UsesTarget b c r a := by
  obtain ⟨files, listed⟩ := course.launches.listed
  obtain ⟨args, built, textual⟩ := course.built
  obtain ⟨text, kept, taken, -, read⟩ := course.taken
  have commanded := outcome_commandLine (r := r) configured course.launches.found
  exact .mk course.launches.found course.launches.named listed (by rw [commanded]; exact built)
    textual (arguments_carry special built) course.ends taken read

theorem validated_target_is_run (configured : b.runner.config = some c)
    (fits : c.kind = b.runner.adapter.configKind) (r : Request) : TargetLaw b c r := by
  have special : c.kind ≠ .base := by
    rw [fits]
    cases b.runner.adapter <;> decide
  refine
    { hidesSource := fun given s => (SameOrder.source given c s).usedAlike configured
      hidesOutput := fun given s => (SameOrder.output given c s).usedAlike configured
      leavesSource := fun blank => (SameOrder.configuredSource blank c).usedAlike configured
      leavesOutput := fun blank => (SameOrder.configuredOutput blank c).usedAlike configured
      onto := (SameOrder.onto c r).usedAlike configured
      validated := fun v checked valid => ?_
      commanded := fun args built => ?_
      run := fun a answer well => ?_ }
  · rw [Tool.validateFor_external configured] at checked
    exact Config.validateFor_passes checked valid
  · obtain ⟨path, -, built⟩ := commandLine_ok configured built
    exact arguments_carry special built
  · obtain ⟨course⟩ := execute_course configured answer well
    exact course.usesTarget configured special

/-- Ruff is asked to check one file and to keep its report. Where else it was configured to look
does not matter. -/
theorem validated_target_is_run_keepReport :
    let b := printing twoLines .zero
    let c := Config.new .default .ruff "ruff"
    (∃ a, ((execute View.whole keepReport .nobody).outcome b).1 = .ok a ∧
      UsesTarget b c keepReport a) ∧
    UsedAlike b keepReport { c with sourcePath := "elsewhere" } keepReport ∧
    UsedAlike b keepReport { c with outputFile := "elsewhere" } keepReport := by
  intro b c
  have law := validated_target_is_run (b := b) (c := c) rfl rfl keepReport
  obtain ⟨a, answer, well, -, -⟩ := keepReport_succeeds
  exact ⟨⟨a, answer, law.run a answer well⟩, law.hidesSource rfl "elsewhere",
    law.hidesOutput rfl "elsewhere"⟩

end Execution

end LintHub
