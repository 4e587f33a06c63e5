import LintHub.Shell.Printing
import LintHub.Schema

/-! # Programs of the shell

The programs that scripts can count on, each as a function of its arguments that gives a status.
-/

namespace LintHub.Shell

/-! ## Tests -/

/-- Whether a file is of a sort. -/
def fileTest (sort : String) (path : String) : Step Bool := do
  let p := Path.ofText path
  if path.isEmpty then return false
  else
    match ← onDisk (·.status p) with
    | .ok (some e) =>
      match sort, e with
      | "-f", .file .. => return true
      | "-d", .directory => return true
      | "-s", .file bytes _ => return !bytes.isEmpty
      | "-x", .file _ executable => return executable
      | "-e", _ | "-r", _ | "-w", _ | "-x", .directory | "-s", .directory => return true
      | _, _ => return false
    | _ => return false

def compareNumbers (how : String) (a b : Int) : Option Bool :=
  match how with
  | "-eq" => some (a == b)
  | "-ne" => some (a != b)
  | "-lt" => some (a < b)
  | "-le" => some (a ≤ b)
  | "-gt" => some (b < a)
  | "-ge" => some (b ≤ a)
  | _ => none

/-- The truth of an expression; none if it cannot be understood. -/
def testOf : List String → Step (Option Bool)
  | [] => return some false
  | ["!"] => return some true
  | "!" :: rest => do return (← testOf rest).map (!·)
  | [s] => return some (!s.isEmpty)
  | ["-z", s] => return some s.isEmpty
  | ["-n", s] => return some (!s.isEmpty)
  | [sort, s] => do
    if ["-f", "-d", "-e", "-r", "-w", "-x", "-s"].contains sort then
      return some (← fileTest sort s)
    else return none
  | [a, "=", b] => return some (a == b)
  | [a, "!=", b] => return some (a != b)
  | [a, how, b] => return compareNumbers how (integerOf a).1 (integerOf b).1
  | _ => return none

def test (name : String) (arguments : List String) : Step Int := do
  match ← testOf arguments with
  | some b => return if b then 0 else 1
  | none =>
    complain s!"{name}: unexpected operator"
    return 2

/-! ## Files -/

def catFile (path : String) : Step Int := do
  if path == "-" then
    printBytes 1 (← get).input
    return 0
  else
    match ← onDisk (·.readBytes (Path.ofText path)) with
    | .ok bytes =>
      printBytes 1 bytes
      return 0
    | .error text =>
      printText 2 s!"cat: {path}: {text}\n"
      return 1

/-- Does something with each argument; the status is the worst one. -/
def worst (f : String → Step Int) (arguments : List String) : Step Int :=
  arguments.foldlM (fun status s => do return max status (← f s)) 0

def changeDisk (f : Disk → Except Fault Disk) (complaint : String → String) : Step Int := do
  match ← onDisk f with
  | .ok disk =>
    modify fun m => { m with disk }
    return 0
  | .error text =>
    printText 2 (complaint text ++ "\n")
    return 1

/-- Goes to a directory. -/
def changeDirectory (path : String) : Step Int := do
  match ← onDisk (·.arrive true path) with
  | .ok ⟨location, some .directory⟩ =>
    modify fun m => { m with disk := { m.disk with here := location } }
    return 0
  | _ =>
    complain s!"cd: can't cd to {path}"
    return 2

/-! ## Time and signals -/

/-- Seconds with a fraction as microseconds. -/
def microsOf (s : String) : Nat :=
  let cs := s.toList
  let whole := cs.takeWhile Char.isDigit
  let fraction := (((cs.drop whole.length).drop 1).takeWhile Char.isDigit).take 6
  let digits := fraction ++ List.replicate (6 - fraction.length) '0'
  ((String.ofList whole).toNat?.getD 0) * 1000000 + ((String.ofList digits).toNat?.getD 0)

def signals : List (String × Nat) :=
  [ ("HUP", 1), ("INT", 2), ("QUIT", 3), ("ILL", 4), ("TRAP", 5), ("ABRT", 6), ("BUS", 7),
    ("FPE", 8), ("KILL", 9), ("USR1", 10), ("SEGV", 11), ("USR2", 12), ("PIPE", 13), ("ALRM", 14),
    ("TERM", 15) ]

/-- The signal of a name or a number. -/
def signal? (s : String) : Option Nat :=
  match s.toNat? with
  | some n => some n
  | none =>
    let name := if "SIG".toList.isPrefixOf s.toList then String.ofList (s.toList.drop 3) else s
    signals.lookup name

/-- Signals that do nothing unless they are asked for. -/
def quietSignals : List Nat := [0, 17, 18, 23, 28]

def sendTo (signal : Nat) (target : String) : Step Int := do
  if target == Machine.number then
    if quietSignals.contains signal then return 0 else throw (.signalled signal)
  else
    complain "kill: No such process"
    return 1

def kill (arguments : List String) : Step Int := do
  let send (name : String) (targets : List String) : Step Int := do
    match signal? name with
    | some n => worst (sendTo n) targets
    | none =>
      complain s!"kill: invalid signal number or name: {name}"
      return 2
  match arguments with
  | "-s" :: name :: targets => send name targets
  | first :: targets =>
    match first.toList with
    | '-' :: name => send (String.ofList name) targets
    | _ => worst (sendTo 15) (first :: targets)
  | [] =>
    complain "kill: usage: kill [-s sigspec | -signum | -sigspec] [pid | job]..."
    return 2

/-! ## All of them -/

/-- Leaves the script; without a status that of the last command counts. -/
def leave (arguments : List String) : Step Int := do
  match arguments with
  | [] => throw (.leaves (← get).status)
  | s :: _ =>
    match s.toNat? with
    | some n => throw (.leaves (n % 256 : Nat))
    | none =>
      complain s!"exit: Illegal number: {s}"
      throw (.leaves 2)

def shift (arguments : List String) : Step Int := do
  let n := (arguments.head?.bind (·.toNat?)).getD 1
  if (← get).arguments.length < n then
    complain "shift: can't shift that many"
    throw (.leaves 2)
  else
    modify fun m => { m with arguments := m.arguments.drop n }
    return 0

/-- Programs that only the shell itself knows. -/
def inner? (name : String) (arguments : List String) : Option (Step Int) :=
  match name with
  | ":" => some (pure 0)
  | "exit" => some (leave arguments)
  | "cd" => some (changeDirectory (arguments.headD ""))
  | "shift" => some (shift arguments)
  | "export" | "set" | "unset" | "trap" | "umask" | "wait" => some (pure 0)
  | _ => none

/-- Programs that can be started from anywhere. -/
def program? (name : String) (arguments : List String) : Option (Step Int) :=
  match name with
  | "true" => some (pure 0)
  | "false" => some (pure 1)
  | "echo" => some (echo arguments)
  | "printf" => some (printf arguments)
  | "test" => some (test name arguments)
  | "[" => some (test name arguments.dropLast)
  | "cat" => some (worst catFile (if arguments.isEmpty then ["-"] else arguments))
  | "pwd" => some do
    printText 1 ((← get).value "PWD" ++ "\n")
    return 0
  | "kill" => some (kill arguments)
  | "sleep" => some do
    modify fun m => { m with slept := arguments.foldl (fun slept s => slept + microsOf s) m.slept }
    return 0
  | "mkdir" =>
    let paths := arguments.filter (· ≠ "-p")
    some (worst (fun s =>
      changeDisk (·.makeDirectories (Path.ofText s)) fun text =>
        "mkdir: cannot create directory '" ++ s ++ "': " ++ text) paths)
  | "touch" =>
    some (worst (fun s =>
      changeDisk (fun d => do
        if ← d.exists (Path.ofText s) then return d else d.writeBytes (Path.ofText s) [])
        fun text => "touch: cannot touch '" ++ s ++ "': " ++ text) arguments)
  | _ => none

end LintHub.Shell
