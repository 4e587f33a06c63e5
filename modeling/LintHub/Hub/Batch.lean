import LintHub.Hub.Basic
import LintHub.Files.Path

/-! # Running tools

Tools are run one by one or in batches. A batch goes through its tools in order; what goes wrong in
the turn of one tool is told in a failed analysis, and the next tool follows. Batches in the background
tell their listeners of the progress and, once, of their end.

All of this is work: other work may be done between any two of its steps.
-/

namespace LintHub.Hub

variable {σ : Type} (v : View σ Hub)

/-! ## One tool -/

/-- Notes that a scripted tool was asked for something. -/
def remember (i : ToolId) (r : Request) : Act Hub Unit := do
  match ← toolAt i with
  | .scripted t => modify (·.setTool i (.scripted { t with requests := t.requests ++ [r] }))
  | .external _ => return ()

/-- Runs a scripted tool. -/
def play (i : ToolId) (t : ScriptedTool) (r : Request) : Work σ Analysis := do
  v.work (remember i r)
  if t.script.waits then Work.pause
  if t.script.cancels then discard (v.work cancel)
  v.work do
    (t.outcome (← get).world.stamp : Except Fault Analysis)

/-- Runs a tool. -/
def execute (i : ToolId) (r : Request) : Work σ Analysis := do
  match ← v.work (toolAt i) with
  | .scripted t => play v i t r
  | .external runner => Execution.execute (v.trans (bench i runner)) r .nobody

/-- Runs a scripted tool and tells a listener of its progress. -/
def playAloud (i : ToolId) (t : ScriptedTool) (r : Request) (listener : Progress → Work σ Unit) :
    Work σ (Except Fault Analysis) := do
  listener ⟨t.script.files, 0, "", "start"⟩
  match ← (play v i t r).attempt with
  | .error f => return .error f
  | .ok a =>
    listener ⟨t.script.files, t.script.files, "", "done"⟩
    return .ok a

/-- Starts a run of a tool and waits for its outcome, which may be a fault. -/
def start (i : ToolId) (r : Request) (l : Listeners σ) : Work σ (Except Fault Analysis) := do
  match ← v.work (toolAt i) with
  | .scripted t => playAloud v i t r (l.progress.getD fun _ => pure ())
  | .external runner => Execution.start (v.trans (bench i runner)) r l

def setRunning (b : Bool) : Act Hub Unit :=
  modify fun h => { h with running := b }

/-- Takes back what was asked of earlier batches. -/
def clearCancel : Act Hub Unit :=
  modify fun h => { h with cancelled := false }

/-- Runs one tool by its name, which has to be registered and available. -/
def runSingle (name : String) (r : Request) : Work σ Analysis := do
  let i ← v.work (require name)
  if !(← v.work (isAvailable i)) then throw (.toolUnavailable name)
  else
    v.work (setRunning true)
    v.work clearCancel
    v.work (say .info name s!"Running {name} ...")
    let result ← (execute v i r).attempt
    v.work (setRunning false)
    Work.ofExcept result

/-! ## The turn of a tool -/

/-- Who listens to a batch: the progress of each tool comes with its name. -/
abbrev BatchListener (σ : Type) := String → Progress → Work σ Unit

/-- A failed analysis of a tool. -/
def failed (name message : String) : Act Hub Analysis := do
  return Analysis.failed (← get).world.stamp name message

/-- Checks the configuration, tells of its warnings, and runs the tool if there are no errors. -/
def checkAndRun (name : String) (i : ToolId) (r : Request) (listener : Option (BatchListener σ)) :
    Work σ Analysis := do
  let checked ← v.work (validateForAt i r)
  checked.warnings.forM fun w => v.work (say .warning name w)
  if !checked.isValid then
    v.work (failed name ("Invalid configuration: " ++ String.intercalate "; " checked.errors))
  else
    v.work (say .info name s!"Running {name} ...")
    match listener with
    | none => execute v i r
    | some f => Work.ofExcept (← start v i r ⟨some (f name), none⟩)

/-- What a fault tells in a failed analysis: its message, or its kind if it has none. -/
def reason (f : Fault) : String :=
  if f.message.isEmpty then f.kind.label else f.message

/-- Runs one tool; whatever goes wrong is told in a failed analysis. -/
def runTool (name : String) (i : ToolId) (r : Request) (listener : Option (BatchListener σ)) :
    Work σ Analysis := do
  match ← (checkAndRun v name i r listener).attempt with
  | .ok a => return a.explained
  | .error f =>
    v.work do
      inWorld (report ⟨.error, .orchestrator, s!"Tool {name} failed", some name, none, some f⟩)
      failed name ("Tool execution failed: " ++ reason f)

/-- The request of a batch as one of its tools gets it: the report goes to a file of its own. -/
def requestFor (name : String) (r : Request) : Except Fault Request := do
  return { r with outputFile := ← toolOutputPath r.outputFile name }

/-- Whether the batch has been asked to stop before a tool. -/
def stopsBefore (name : String) : Act Hub Bool := do
  if (← get).cancelled then
    say .info name ("Batch cancelled before " ++ name)
    return true
  else return false

/-- The tool that a name leads to, if it is available. -/
def readyTool (name : String) : Act Hub (Option ToolId) := do
  match (← get).idOf? name with
  | some i => if ← isAvailable i then return some i else skip
  | none => skip
where
  skip : Act Hub (Option ToolId) := do
    say .info name ("Skipping unavailable tool " ++ name)
    return none

/-- The turns of the tools of a batch. -/
def runNames (r : Request) (listener : Option (BatchListener σ)) :
    List String → Work σ (List Analysis)
  | [] => return []
  | name :: names => do
    if ← v.work (stopsBefore name) then return []
    else
      match ← v.work (readyTool name) with
      | none => runNames r listener names
      | some i =>
        let own ← Work.ofExcept (requestFor name r)
        let a ← runTool v name i own listener
        return a :: (← runNames r listener names)

/-! ## Batches -/

/-- Checks that there are names and that all of them are registered. -/
def checkNames (names : List String) : Act Hub Unit := do
  if names.isEmpty then throw .noTools
  else
    let h ← get
    match names.find? fun name => (h.idOf? name).isNone with
    | some name => throw (.unknownTool name)
    | none => return ()

/-- Runs a batch whose names have been checked; while it goes on, the hub counts as running. -/
def executeBatch (names : List String) (r : Request) (listener : Option (BatchListener σ)) :
    Work σ (List Analysis) := do
  v.work (setRunning true)
  let result ← (runNames v r listener names).attempt
  v.work (setRunning false)
  Work.ofExcept result

/-- Runs a batch and waits for it. -/
def runBatch (names : List String) (r : Request) : Work σ (List Analysis) := do
  v.work (checkNames names)
  v.work clearCancel
  executeBatch v names r none

/-- What is done at once when a batch is handed over to be run in the background. -/
def submit : Act Hub Unit := do
  clearCancel
  if (← get).workers ≤ 0 then throw .noWorkers
  else return ()

/-- A batch in the background. Its end is told once: with its analyses, or with none if it failed. -/
def task (names : List String) (r : Request) (listener : Option (BatchListener σ))
    (completion : Option (List Analysis → Work σ Unit)) : Work σ (List Analysis) := do
  let tell (as : List Analysis) : Work σ Unit :=
    match completion with
    | none => pure ()
    | some f => f as
  let whole : Work σ (List Analysis) := do
    v.work (checkNames names)
    executeBatch v names r listener
  match ← whole.attempt with
  | .ok as =>
    tell as
    return as
  | .error f =>
    v.work (inWorld (report ⟨.error, .orchestrator, "Batch analysis failed", none, none, some f⟩))
    tell []
    throw f

/-! ## Reports -/

/-- How many files a summary names if it is not said. -/
def fileLimit (limit : Json) : Act Hub Json := do
  match limit with
  | .null => return .int (← get).world.settings.topFilesLimit
  | v => return v

end LintHub.Hub
