import LintHub.Gate.Verdict

/-! # The gate on the command line

Reads the report that the arguments name, prints the verdict and ends with its exit code.
-/

namespace LintHub

/-- The mark of the merged results. No line of a verdict shows it. -/
def unseenStamp : Stamp :=
  ⟨"gate", ⟨⟨1970, 1, 1⟩, 0, 0, 0, 0, 0⟩⟩

/-- What the system's refusal to read a file means. -/
def refusalOf : IO.Error → Refusal
  | .noFileOrDirectory .. => .noEntry
  | .permissionDenied .. => .noAccess
  | .inappropriateType .. => .isDirectory
  | _ => .noAccess

/-- The bytes of a file, or why they cannot be had. -/
def readReport (path : String) : IO (Except Fault (List UInt8)) := do
  try
    return .ok (← IO.FS.readBinFile path).toList
  catch e =>
    return .error (.refused (refusalOf e) path)

/-- The outcome of the gate on the files of this system. -/
def runGate (arguments : List String) : IO (Except Fault Gate.Outcome) := do
  match Gate.Options.ofArguments arguments with
  | .error halt => return halt.outcome
  | .ok options =>
    return Gate.judge unseenStamp options (← readReport (Path.ofText options.report).text)

end LintHub

def main (arguments : List String) : IO UInt32 := do
  match ← LintHub.runGate arguments with
  | .ok outcome =>
    IO.print outcome.stdout
    IO.eprint outcome.stderr
    return outcome.exit.toNat.toUInt32
  | .error fault =>
    IO.eprintln fault.message
    return 1
