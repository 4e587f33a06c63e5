import LintHub.Tool.Runner
import LintHub.Text.Lines

/-! # Running programs

A program is started, may stand still until it is released, and then does what it does. The version
of a tool is what its program says of itself.
-/

namespace LintHub

namespace World

/-- What the program does that is started next. -/
def nextRun (w : World) (command : List String) : Run × World :=
  match command with
  | [_, "--version"] => (w.versionRun, w)
  | _ =>
    match w.runs with
    | [] => (.silent, w)
    | r :: rest => (r, { w with runs := rest })

end World

/-- Starts a program for which a script exists. -/
def startScripted (command : List String) (timeout : Int) : Act World Run := do
  modify fun w => { w with calls := w.calls ++ [⟨command, timeout⟩] }
  modifyGet fun w => w.nextRun command

/-- What a started program does before it ends. -/
def finishScripted (command : List String) (timeout : Int) (r : Run) : Act World Finished := do
  modify fun w => { w with clock := w.clock.add r.elapsed }
  match r.ending with
  | .raises f => throw f
  | .timesOut => throw (.timeout (command.map .str) (.int timeout))
  | .exits exit stdout stderr =>
    match r.writes with
    | none => pure ()
    | some (path, text) =>
      let p := Path.ofText path
      let w ← get
      let disk ← (w.disk.makeDirectories p.parent : Except Fault Disk)
      let disk ← (disk.writeText p text : Except Fault Disk)
      set { w with disk }
    return ⟨exit, stdout, stderr⟩

def diskView : View World Disk :=
  ⟨fun w => w.disk, fun w disk => { w with disk }⟩

/-- Runs a program for real in the working directory. -/
def runLive (command : List String) (timeout : Int) : Act World Finished :=
  diskView.act (Shell.run none command (.int timeout))

/-- Runs a program to its end without standing still. -/
def runAtOnce (command : List String) (timeout : Int) : Act World Finished := do
  if (← get).live then runLive command timeout
  else finishScripted command timeout (← startScripted command timeout)

/-- Runs a program; it may stand still between its start and its end. -/
def runProgram {σ : Type} (v : View σ World) (command : List String) (timeout : Int) :
    Work σ Finished := do
  if (← v.work get).live then v.work (runLive command timeout)
  else
    let r ← v.work (startScripted command timeout)
    if r.waits then Work.pause
    v.work (finishScripted command timeout r)

/-! ## Versions -/

/-- Two or three numbers with points between them, at the start of a text. -/
def versionHere? (cs : List Char) : Option String :=
  let number (cs : List Char) : List Char := cs.takeWhile Text.isDigit
  let major := number cs
  match cs.drop major.length with
  | '.' :: rest =>
    let minor := number rest
    if major.isEmpty || minor.isEmpty then none
    else
      let base := major ++ ['.'] ++ minor
      match rest.drop minor.length with
      | '.' :: rest =>
        let patch := number rest
        some (String.ofList (if patch.isEmpty then base else base ++ ['.'] ++ patch))
      | _ => some (String.ofList base)
  | _ => none

/-- The first version in a text. -/
def findVersion? : List Char → Option String
  | [] => none
  | c :: cs => (versionHere? (c :: cs)).orElse fun _ => findVersion? cs

def unknownVersion : String := "unknown"

/-- The most seconds that a program may take to tell its version. -/
def versionTimeout : Int := 15

namespace Bench

/-- Asks the program for its version. -/
def probeVersion : Act Bench String := do
  let path ← executablePath
  if path.isEmpty then return unknownVersion
  else
    match ← (inWorld (runAtOnce [path, "--version"] versionTimeout)).attempt with
    | .ok r =>
      let text := if r.stdout.isEmpty then r.stderr else r.stdout
      return (findVersion? text.toList).getD unknownVersion
    | .error f =>
      if f.isOneOf [.system, .program] then
        say .warning "Version probe failed"
        return unknownVersion
      else throw f

/-- The version, asked for once. -/
def version : Act Bench String := do
  match (← get).runner.version with
  | some v => return v
  | none =>
    let v ← probeVersion
    setRunner fun r => { r with version := some v }
    return v

end Bench

end LintHub
