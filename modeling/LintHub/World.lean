import LintHub.Analysis
import LintHub.Files.Disk
import LintHub.Log.Event
import LintHub.Settings

/-! # The outside world

Files, settings, the clock, the programs that can be found, and what the ones that are started do. An
act may fail; what it did before stays done.
-/

namespace LintHub

/-- Work on a state that may fail. -/
abbrev Act (σ α : Type) := ExceptT Fault (StateM σ) α

/-- How a started program ends, unless it runs for real. -/
inductive Ending where
  | exits (code : Int) (stdout stderr : String)
  | raises (f : Fault)
  | timesOut
  deriving Repr

/-- What a started program does. -/
structure Run where
  /-- Whether it stands still until it is released. -/
  waits : Bool
  /-- How far it moves the clock, in seconds. -/
  elapsed : Binary64
  /-- A file that it writes. -/
  writes : Option (String × String)
  ending : Ending
  deriving Repr

def Run.silent : Run :=
  ⟨false, Binary64.zero, none, .exits 0 "" ""⟩

/-- A program that was started, and how many seconds it may take. -/
structure Call where
  command : List String
  timeout : Int
  deriving DecidableEq, Repr

structure World where
  disk : Disk
  settings : Settings
  /-- Marks every new analysis. -/
  stamp : Stamp
  /-- Where the programs are that can be found by name. -/
  programs : List (String × String)
  /-- Seconds on a clock that only moves while programs run. -/
  clock : Binary64
  /-- Whether programs run for real. -/
  live : Bool
  /-- What a program does that is asked for its version. -/
  versionRun : Run
  /-- What the other programs do, in the order in which they are started. -/
  runs : List Run
  log : List LogEvent
  calls : List Call
  deriving Repr

namespace World

def record (w : World) (e : LogEvent) : World :=
  { w with log := w.log ++ [e] }

end World

/-- Reports an event. -/
def report (e : LogEvent) : Act World Unit :=
  modify (·.record e)

/-- Reports a message, about a tool if one is given. -/
def note (level : LogLevel) (source : LogSource) (message : String) (tool : Option String) :
    Act World Unit :=
  report ⟨level, source, message, tool, none, none⟩

end LintHub
