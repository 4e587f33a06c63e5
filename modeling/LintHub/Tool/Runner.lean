import LintHub.Tool.Adapter
import LintHub.Tool.Check
import LintHub.Tool.Report.Ruff
import LintHub.Tool.Report.Bandit
import LintHub.Routine
import LintHub.Files.Sources
import LintHub.Shell.Run

/-! # Runners

A runner drives one external analyser: it remembers where the program is and which version it has,
holds the configuration, and lets one run go on at a time.
-/

namespace LintHub

structure Runner where
  adapter : Adapter
  config : Option Config
  running : Bool
  /-- Whether the run that goes on has been asked to stop. -/
  cancelled : Bool
  /-- Where the program was found when it was first looked for; empty if nowhere. -/
  path : Option String
  /-- The version when it was first asked for. -/
  version : Option String
  deriving Repr

def Runner.new (a : Adapter) : Runner :=
  ⟨a, none, false, false, none, none⟩

/-- A runner and the world it works in. -/
structure Bench where
  runner : Runner
  world : World
  deriving Repr

namespace Bench

def worldView : View Bench World :=
  ⟨fun b => b.world, fun b w => { b with world := w }⟩

def inWorld {α : Type} (m : Act World α) : Act Bench α :=
  worldView.act m

def setRunner (f : Runner → Runner) : Act Bench Unit :=
  modify fun b => { b with runner := f b.runner }

def adapter : Act Bench Adapter := do
  return (← get).runner.adapter

/-- Reports a message about the tool. -/
def say (level : LogLevel) (message : String) : Act Bench Unit := do
  let a ← adapter
  inWorld (note level .external message (some a.name))

/-! ## Looking for the program -/

/-- Where the program is now: where the settings say if a file is there, else where its name is
found. -/
def locate (w : World) (a : Adapter) : Except Fault String := do
  let chosen := a.chosenProgram w.settings
  if !chosen.isEmpty then
    if ← w.disk.isFile (Path.ofText chosen) then return chosen
  return (w.programs.lookup (if chosen.isEmpty then a.name else chosen)).getD ""

/-- Where the program is, looked for once. -/
def executablePath : Act Bench String := do
  let b ← get
  match b.runner.path with
  | some path => return path
  | none =>
    let path ← (locate b.world b.runner.adapter : Except Fault String)
    setRunner fun r => { r with path := some path }
    return path

def isAvailable : Act Bench Bool := do
  return !(← executablePath).isEmpty

end Bench

end LintHub
