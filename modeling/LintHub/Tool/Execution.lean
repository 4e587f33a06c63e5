import LintHub.Tool.Program
import LintHub.Tool.Command
import LintHub.Progress

/-! # Runs of external tools

One run of one tool: look for the program and the files, start the program, read its report. What
goes wrong on the way is told in a failed analysis; listeners hear of the progress and of every line
that the program prints.
-/

namespace LintHub

/-- Who listens to a run. -/
structure Listeners (σ : Type) where
  progress : Option (Progress → Work σ Unit)
  output : Option (String → Work σ Unit)

def Listeners.nobody {σ : Type} : Listeners σ :=
  ⟨none, none⟩

namespace Bench

/-! ## The run that goes on -/

/-- Starts a run unless one goes on. -/
def tryStart : Act Bench Bool := do
  if (← get).runner.running then return false
  else
    setRunner fun r => { r with running := true, cancelled := false }
    return true

def finish : Act Bench Unit :=
  setRunner fun r => { r with running := false }

/-- Asks the run that goes on to stop, if one does. -/
def cancel : Act Bench Bool := do
  if (← get).runner.running then
    setRunner fun r => { r with cancelled := true }
    say .info "Cancellation requested"
    return true
  else return false

/-! ## Its outcome -/

def stamp : Act Bench Stamp := do
  return (← get).world.stamp

/-- The time since a run started. -/
def since (started : Binary64) : Act Bench Time.Span := do
  match Time.Span.ofSeconds? ((← get).world.clock.sub started) with
  | some (.ok span) => return span
  | some (.error e) => throw (.span e)
  | none => throw .undefinedInteger

/-- A failed analysis of a run that started at a time, and a warning about it. -/
def failed (started : Binary64) (message : String) : Act Bench Analysis := do
  say .warning message
  let executionTime ← since started
  let a := Analysis.failed (← stamp) (← adapter).name message
  return { a with executionTime }

/-- Faults of a report that are told in a failed analysis. -/
def reportFaults : List FaultKind := [.system, .value, .key, .type, .member]

/-- The issues in a report and the number of files it is about, if it says. -/
def readReport (root : Option Path) (text : String) : Act Bench (List Issue × Option Int) := do
  match ← adapter with
  | .ruff =>
    let disk := (← get).world.disk
    let issues ← (RuffReport.issuesOf disk root text : Except Fault (List Issue))
    return (issues, none)
  | .bandit => inWorld (BanditReport.read root text)

/-- The report of a run. Ruff prints it, and it is kept in the output file; bandit writes the file
itself and prints the report only where there is none. -/
def reportText (c : Config) (r : Request) (printed : String) : Act Bench String := do
  let output := (c.targetFor r).outputFile
  match ← adapter with
  | .ruff =>
    if !output.isBlank then
      let p ← (Path.ofJson output : Except Fault Path)
      let disk ← ((← get).world.disk.writeText p printed : Except Fault Disk)
      modify fun b => { b with world := { b.world with disk } }
    return printed
  | .bandit =>
    if output.isBlank then return printed
    else
      let p ← (Path.ofJson output : Except Fault Path)
      let disk := (← get).world.disk
      if ← (disk.exists p : Except Fault Bool) then (disk.readText p : Except Fault String)
      else return printed

/-- What a program prints when it fails: the end of it, or a word if there is nothing. -/
def complaint (stderr : String) : String :=
  let text := Text.lastChars 2000 (Text.strip stderr)
  if text.isEmpty then "no output" else text

/-- The issues of a finished program. -/
def judge (c : Config) (r : Request) (source : Path) (done : Finished) :
    Act Bench (List Issue × Option Int) := do
  readReport (some source) (← reportText c r done.stdout)

/-- The analysis of a run that went well. -/
def succeeded (started : Binary64) (issues : List Issue) (files : Int) : Act Bench Analysis := do
  let executionTime ← since started
  let a := Analysis.new (← stamp) (.str (← adapter).name)
  return { a with issues, filesAnalyzed := files, executionTime }

end Bench

/-! ## The run -/

namespace Execution

variable {σ : Type} (v : View σ Bench)

/-- Tells a listener of the progress. What the listener gets wrong is only reported. -/
def emit (listener : Option (Progress → Work σ Unit)) (p : Progress) : Work σ Unit :=
  match listener with
  | none => pure ()
  | some f => do
    match ← (f p).attempt with
    | .ok () => pure ()
    | .error fault =>
      v.work do
        let a ← Bench.adapter
        Bench.inWorld (report ⟨.error, .external, "Progress callback failed", some a.name, none,
          some fault⟩)

/-- Reads the report of a program that ended well and tells of the end. -/
def conclude (c : Config) (r : Request) (l : Listeners σ) (started : Binary64) (source : Path)
    (fileCount : Int) (done : Finished) : Work σ Analysis := do
  let a ← v.work Bench.adapter
  match ← v.work (Bench.judge c r source done).attempt with
  | .error f =>
    if f.isOneOf Bench.reportFaults then
      v.work (Bench.failed started s!"Could not parse {a.name} output: {f.message}")
    else throw f
  | .ok (issues, files) =>
    emit v l.progress ⟨fileCount, fileCount, "", a.name ++ " completed"⟩
    v.work do
      Bench.say .info s!"{a.name} found {Text.natText issues.length} issues"
      Bench.succeeded started issues (files.getD fileCount)

/-- Starts the program and waits for its end. -/
def launch (c : Config) (r : Request) (l : Listeners σ) (started : Binary64) (source : Path)
    (fileCount : Int) : Work σ Analysis := do
  let a ← v.work Bench.adapter
  let command ← v.work do
    let texts ← (Bench.textsFrom 0 (← Bench.commandLine r) : Except Fault (List String))
    Bench.say .info ("Running " ++ String.intercalate " " texts)
    return texts
  match ← (runProgram (v.trans Bench.worldView) command c.timeout).attempt with
  | .error f =>
    if f.isOneOf [.timeout] then
      v.work (Bench.failed started s!"{a.name} timed out after {Text.intText c.timeout}s")
    else if f.isOneOf [.system] then
      v.work (Bench.failed started s!"Failed to start {a.name}: {f.message}")
    else throw f
  | .ok done =>
    match l.output with
    | none => pure ()
    | some f => (Text.lines done.stdout ++ Text.lines done.stderr).forM f
    if Adapter.acceptsExit done.exit then conclude v c r l started source fileCount done
    else
      v.work (Bench.failed started
        s!"{a.name} exited with code {Text.intText done.exit}: {Bench.complaint done.stderr}")

/-- One run with a configuration. -/
def run (c : Config) (r : Request) (l : Listeners σ) : Work σ Analysis := do
  let a ← v.work Bench.adapter
  let started ← v.work do return (← get).world.clock
  if !(← v.work Bench.isAvailable) then
    v.work (Bench.failed started s!"{a.name} not installed. {a.requirements}")
  else
    let (source, files) ← v.work do
      let source ← (Path.ofJson (c.targetFor r).sourcePath : Except Fault Path)
      let disk := (← get).world.disk
      let files ← (disk.sources source a.extensions : Except Fault (List Path))
      return (source, files)
    let fileCount : Int := files.length
    emit v l.progress ⟨fileCount, 0, "", "Starting " ++ a.name⟩
    if ← v.work do return (← get).runner.cancelled then
      v.work (Bench.failed started "Analysis cancelled")
    else launch v c r l started source fileCount

/-- The analysis of a run that could not start because another one goes on. -/
def busy : Act Bench Analysis := do
  return Analysis.failed (← Bench.stamp) (← Bench.adapter).name "Analysis already running"

/-- Starts a run and waits for its outcome, which may be a fault. That there is no configuration is
found out before the start; while a run goes on no other one starts. However a run ends, the next one
may start. -/
def start (r : Request) (l : Listeners σ) : Work σ (Except Fault Analysis) := do
  let c ← v.work Bench.requireConfig
  if ← v.work Bench.tryStart then
    let outcome ← (run v c r l).attempt
    v.work Bench.finish
    return outcome
  else
    return .ok (← v.work busy)

/-- Runs the tool. -/
def execute (r : Request) (l : Listeners σ) : Work σ Analysis := do
  Work.ofExcept (← start v r l)

end Execution

/-! ## Reports of earlier runs -/

namespace Bench

/-- The analysis that a report in a file describes. Paths are relative to a source, the configured one
unless another is given. -/
def analysisOfFile (output source : String) : Act Bench Analysis := do
  let b ← get
  let a := b.runner.adapter
  let source := if source.isEmpty then (b.runner.config.map (·.sourcePath)).getD "" else source
  let root := if source.isEmpty then none else some (Path.ofText source)
  let reading : Act Bench (List Issue × Option Int) := do
    let text ← (b.world.disk.readText (Path.ofText output) : Except Fault String)
    readReport root text
  match ← reading.attempt with
  | .ok (issues, files) =>
    return { Analysis.new b.world.stamp (.str a.name) with
      issues, filesAnalyzed := files.getD 0 }
  | .error f =>
    if f.isOneOf reportFaults then
      return Analysis.failed b.world.stamp a.name s!"Could not parse {output}: {f.message}"
    else throw f

end Bench

end LintHub
