import LintHub.Tool.Execution
import LintHub.Tool.Scripted

/-! # The hub

A hub holds tools under their names. A tool that is registered under a name in use takes its place,
yet work that has begun goes on with the tool it began with: tools are therefore told apart by where
they were put, and names only lead there.
-/

namespace LintHub

inductive Tool where
  | external (r : Runner)
  | scripted (t : ScriptedTool)
  deriving Repr

namespace Tool

def name : Tool → String
  | external r => r.adapter.name
  | scripted t => t.script.name

def description : Tool → String
  | external r => r.adapter.description
  | scripted _ => ScriptedTool.description

def extensions : Tool → List String
  | external r => r.adapter.extensions
  | scripted _ => ScriptedTool.extensions

def formats : List String := ["json"]

def help : Tool → String
  | external r => r.adapter.help
  | scripted _ => ScriptedTool.help

def requirements : Tool → String
  | external r => r.adapter.requirements
  | scripted _ => ScriptedTool.requirements

/-- The kind of configuration that is made for a tool. -/
def configKind : Tool → ConfigKind
  | external r => r.adapter.configKind
  | scripted _ => .base

def defaultConfig (settings : Settings) (t : Tool) : Config :=
  Config.new settings t.configKind t.name

def configuration : Tool → Option Offer
  | external r => r.config.map .config
  | scripted t => t.config

/-- The tool with what is offered as its configuration. An external tool takes only its own kind. -/
def configure (o : Offer) : Tool → Except Fault Tool
  | scripted t => .ok (scripted (t.configure o))
  | external r =>
    let refused : Except Fault Tool :=
      .error (.configType r.adapter.name r.adapter.configKind.label o.label)
    match o with
    | .config c =>
      if c.kind = r.adapter.configKind then .ok (external { r with config := some c }) else refused
    | .value _ => refused

def isRunning : Tool → Bool
  | external r => r.running
  | scripted t => t.script.running

/-- Checks the configuration of a tool. -/
def validate (disk : Disk) : Tool → Except Fault Validation
  | scripted t => t.script.validation
  | external r =>
    match r.config with
    | some c => c.validate disk
    | none => .ok (Validation.empty.error ("Tool is not configured: " ++ r.adapter.name))

/-- Checks the configuration of a tool as it will be used for a request. -/
def validateFor (disk : Disk) (t : Tool) (r : Request) : Except Fault Validation :=
  match t.configuration with
  | none => t.validate disk
  | some (.config c) => c.validateFor disk (c.targetFor r)
  | some (.value v) => .error (.noMember v.kind "model_copy")

end Tool

/-- Where a tool was put. -/
abbrev ToolId := Nat

structure Hub where
  world : World
  /-- Every tool that was ever registered. -/
  tools : List Tool
  /-- The tools in use, by name, in the order in which the names first came. -/
  names : List (String × ToolId)
  running : Bool
  /-- Whether the batches that go on have been asked to stop. -/
  cancelled : Bool
  /-- How many batches can run at a time. -/
  workers : Int
  deriving Repr

namespace Hub

/-- A hub without tools. -/
def new (w : World) : Hub :=
  ⟨w, [], [], false, false, w.settings.asyncWorkers⟩

def idOf? (h : Hub) (name : String) : Option ToolId :=
  h.names.lookup name

def toolAt? (h : Hub) (i : ToolId) : Option Tool :=
  h.tools[i]?

def tool? (h : Hub) (name : String) : Option Tool :=
  (h.idOf? name).bind h.toolAt?

/-- The registered names. -/
def registered (h : Hub) : List String :=
  h.names.map (·.1)

def setTool (h : Hub) (i : ToolId) (t : Tool) : Hub :=
  { h with tools := h.tools.set i t }

def worldView : View Hub World :=
  ⟨fun h => h.world, fun h w => { h with world := w }⟩

/-- The hub with the runner of an external tool and the world set. -/
def setBench (h : Hub) (i : ToolId) (b : Bench) : Hub :=
  { h with
    world := b.world
    tools := h.tools.modify i fun
      | .external _ => .external b.runner
      | t => t }

/-- The bench of an external tool; where there is none, that of a spare one. -/
def bench (i : ToolId) (spare : Runner) : View Hub Bench where
  get h :=
    match h.toolAt? i with
    | some (.external r) => ⟨r, h.world⟩
    | _ => ⟨spare, h.world⟩
  set h b := h.setBench i b

def inWorld {α : Type} (m : Act World α) : Act Hub α :=
  worldView.act m

/-- Reports a message about a tool. -/
def say (level : LogLevel) (tool message : String) : Act Hub Unit :=
  inWorld (note level .orchestrator message (some tool))

/-! ## Registration -/

/-- Registers a tool, which has to be there and to have a name. -/
def register (t : Option Tool) : Act Hub Unit := do
  match t with
  | none => throw .nullTool
  | some t =>
    if t.name.isEmpty then throw .namelessTool
    else
      modify fun h =>
        { h with tools := h.tools ++ [t], names := setNamed h.names t.name h.tools.length }
      say .info t.name ("Registered tool " ++ t.name)

/-- Where a tool is that has to be registered. -/
def require (name : String) : Act Hub ToolId := do
  match (← get).idOf? name with
  | some i => return i
  | none => throw (.toolNotFound name)

/-! ## Single tools -/

/-- The tool at a place, which has been put there before. -/
def toolAt (i : ToolId) : Act Hub Tool := do
  match (← get).toolAt? i with
  | some t => return t
  | none => throw (.toolNotFound "")

/-- Where the program of a tool is; empty if nowhere. -/
def pathOf (i : ToolId) : Act Hub String := do
  match ← toolAt i with
  | .scripted t => return t.path
  | .external r => (bench i r).act Bench.executablePath

def isAvailable (i : ToolId) : Act Hub Bool := do
  match ← toolAt i with
  | .scripted t => return t.available
  | .external r => (bench i r).act Bench.isAvailable

def versionOf (i : ToolId) : Act Hub String := do
  match ← toolAt i with
  | .scripted _ => return ScriptedTool.version
  | .external r => (bench i r).act Bench.version

def commandLine (i : ToolId) (r : Request) : Act Hub (List Json) := do
  match ← toolAt i with
  | .scripted t => return t.commandLine r
  | .external runner => (bench i runner).act (Bench.commandLine r)

/-- Asks the run of a tool to stop; tells whether one went on. -/
def cancelTool (i : ToolId) : Act Hub Bool := do
  match ← toolAt i with
  | .scripted t =>
    modify (·.setTool i (.scripted { t with cancelled := true }))
    return t.script.running
  | .external r => (bench i r).act Bench.cancel

/-- Tells a tool that no more work will come. -/
def stopTool (i : ToolId) : Act Hub Unit := do
  match ← toolAt i with
  | .scripted t => modify (·.setTool i (.scripted { t with stopped := true }))
  | .external _ => return ()

/-- The analysis that a report in a file describes. A scripted tool reads none. -/
def analysisOfFile (i : ToolId) (output source : String) : Act Hub Analysis := do
  match ← toolAt i with
  | .scripted t => return Analysis.new (← get).world.stamp (.str t.script.name)
  | .external r => (bench i r).act (Bench.analysisOfFile output source)

def configureAt (i : ToolId) (o : Offer) : Act Hub Unit := do
  let t ← ((← toolAt i).configure o : Except Fault Tool)
  modify (·.setTool i t)

def validateAt (i : ToolId) : Act Hub Validation := do
  let disk := (← get).world.disk
  ((← toolAt i).validate disk : Except Fault Validation)

def validateForAt (i : ToolId) (r : Request) : Act Hub Validation := do
  let disk := (← get).world.disk
  ((← toolAt i).validateFor disk r : Except Fault Validation)

/-! ## Tools by name -/

/-- The names of the tools whose program can be found. -/
def available : Act Hub (List String) := do
  let names ← (← get).names.filterM fun p => isAvailable p.2
  return names.map (·.1)

def isToolAvailable (name : String) : Act Hub Bool := do
  match (← get).idOf? name with
  | some i => isAvailable i
  | none => return false

def configure (name : String) (o : Offer) : Act Hub Unit := do
  configureAt (← require name) o

def configuration (name : String) : Act Hub (Option Offer) := do
  return (← toolAt (← require name)).configuration

def validate (name : String) : Act Hub Validation := do
  validateAt (← require name)

/-- Checks several tools, each of them once. -/
def validateMany (names : List String) : Act Hub (List (String × Validation)) :=
  names.eraseDups.mapM fun name => do
    return (name, ← validate name)

/-! ## Stopping -/

/-- Asks everything that goes on to stop: batches before their next tool, and each tool that runs. -/
def cancel : Act Hub Bool := do
  modify fun h => { h with cancelled := true }
  (← get).names.forM fun (name, i) => do
    if (← toolAt i).isRunning then
      say .info name ("Cancelling " ++ name)
      discard (cancelTool i)
  return true

/-- Tells every registered tool that no more work will come. -/
def shutdown : Act Hub Unit := do
  (← get).names.forM fun p => stopTool p.2

end Hub

end LintHub
