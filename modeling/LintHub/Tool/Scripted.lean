import LintHub.Tool.Config
import LintHub.Validation
import LintHub.World

/-! # Scripted tools

A tool that runs no program: what it finds, how it fails and what it tells of itself is laid down
beforehand. It remembers what it was asked for, and keeps whatever it is given as its configuration.
-/

namespace LintHub

/-- What a scripted tool does. -/
structure Script where
  name : String
  issues : List Json
  files : Int
  millis : Int
  success : Bool
  error : String
  /-- The tool that its analyses name. -/
  reportedName : String
  /-- What it finds out about its configuration. -/
  validation : Except Fault Validation
  /-- A fault in place of an analysis. -/
  fault : Option Fault
  /-- Whether it counts as running, whatever goes on. -/
  running : Bool
  /-- Whether a run stands still until it is released. -/
  waits : Bool
  /-- Whether a run cancels everything that goes on. -/
  cancels : Bool
  deriving Repr

/-- A tool that finds nothing in one file. -/
def Script.quiet (name : String) : Script :=
  ⟨name, [], 1, 0, true, "", name, .ok .empty, none, false, false, false⟩

structure ScriptedTool where
  script : Script
  available : Bool
  config : Option Offer
  /-- What it was asked for, in order. -/
  requests : List Request
  cancelled : Bool
  stopped : Bool
  deriving Repr

namespace ScriptedTool

def new (script : Script) (available : Bool) : ScriptedTool :=
  ⟨script, available, none, [], false, false⟩

def path (t : ScriptedTool) : String :=
  if t.available then "/usr/bin/" ++ t.script.name else ""

def version : String := "1.0"

def description : String := "fake tool"

def extensions : List String := [".py"]

def help : String := "no options"

def requirements : String := "none"

/-- A value that is null takes the configuration away. -/
def configure (t : ScriptedTool) (o : Offer) : ScriptedTool :=
  { t with config := match o with
      | .value .null => none
      | o => some o }

/-- The analysis that is laid down, or the fault in its place. -/
def outcome (t : ScriptedTool) (stamp : Stamp) : Except Fault Analysis := do
  let s := t.script
  match s.fault with
  | some f => throw f
  | none =>
    let issues ← s.issues.mapM Issue.ofJson
    let executionTime ← (Time.Span.ofMillis s.millis).mapError .span
    return { Analysis.new stamp (.str s.reportedName) with
      issues, filesAnalyzed := s.files, executionTime, success := s.success
      errorMessage := .str s.error }

/-- The program and its arguments. -/
def commandLine (t : ScriptedTool) (r : Request) : List Json :=
  [.str t.script.name, r.sourcePath]

end ScriptedTool

end LintHub
