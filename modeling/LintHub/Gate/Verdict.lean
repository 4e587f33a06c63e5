import LintHub.Gate.Arguments
import LintHub.Report.Aggregate
import LintHub.Store

/-! # The verdict of the gate

A report passes if its issues of the chosen severity and above are within the budget and no tool
failed, unless failures are allowed. A report that cannot be read is an error of its own.
-/

namespace LintHub.Gate

/-- How a run of the gate ends. -/
structure Outcome where
  exit : Int
  stdout : String
  stderr : String
  deriving DecidableEq, Repr

def usage : String :=
  "usage: quality_gate.py [-h] [--fail-on \x7binfo,warning,error,critical\x7d]\n" ++
  "                       [--max-issues MAX_ISSUES] [--allow-tool-failures]\n" ++
  "                       report\n"

def helpText : String :=
  usage ++
  "\npositional arguments:\n" ++
  "  report                Result document or list written by the orchestrator\n" ++
  "\noptions:\n" ++
  "  -h, --help            show this help message and exit\n" ++
  "  --fail-on \x7binfo,warning,error,critical\x7d\n" ++
  "  --max-issues MAX_ISSUES\n" ++
  "  --allow-tool-failures\n"

/-- The outcome of arguments that cannot be followed. -/
def Halt.outcome : Halt → Except Fault Outcome
  | .help => .ok ⟨0, helpText, ""⟩
  | .complaint text => .ok ⟨2, "", usage ++ "quality_gate.py: error: " ++ text ++ "\n"⟩
  | .fault f => .error f

/-- The issues that count against the budget. -/
def blocking (o : Options) (merged : Analysis) : List Issue :=
  merged.issuesAtLeast ((Severity.ofText? o.failOn).getD .warning)

def isFailed (o : Options) (merged : Analysis) : Bool :=
  decide (o.maxIssues < (blocking o merged).length) ||
    (!merged.success && !o.allowToolFailures)

/-- An integer in a line of the verdict; one of too many digits cannot be written. -/
def numberText (i : Int) : Except Fault String :=
  if Json.digitLimit < (Text.natText i.natAbs).length then .error .integerTooLong
  else .ok (Text.intText i)

def verdictLines (o : Options) (merged : Analysis) : Except Fault (List String) := do
  let files ← numberText merged.filesAnalyzed
  return (
    [ s!"[gate] issues={Text.natText merged.issues.length} files={files}",
      s!"[gate] at_least_{o.failOn}={Text.natText (blocking o merged).length} (max {Text.intText o.maxIssues})" ] ++
    (if merged.success then [] else ["[gate] tool failures: " ++ merged.errorMessage.display]) ++
    [if isFailed o merged then "[gate] FAILED" else "[gate] PASSED"])

def linesText (lines : List String) : String :=
  String.join (lines.map (· ++ "\n"))

/-- The outcome for merged results. -/
def verdict (o : Options) (merged : Analysis) : Except Fault Outcome := do
  return ⟨if isFailed o merged then 1 else 0, linesText (← verdictLines o merged), ""⟩

/-- The outcome for the content of the report. -/
def judge (stamp : Stamp) (o : Options) (content : Except Fault (List UInt8)) :
    Except Fault Outcome :=
  match Store.analysesOf stamp.time o.report content >>= aggregate stamp with
  | .ok merged => verdict o merged
  | .error (.store text) => .ok ⟨2, linesText ["[gate] cannot read report: " ++ text], ""⟩
  | .error f => .error f

/-- The gate on the files of a disk. -/
def run (stamp : Stamp) (disk : Disk) (arguments : List String) : Except Fault Outcome :=
  match Options.ofArguments arguments with
  | .error halt => halt.outcome
  | .ok o => judge stamp o (disk.readBytes (Path.ofText o.report))

end LintHub.Gate
