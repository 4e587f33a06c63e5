import LintHub.Shell.Programs
import LintHub.Shell.Reader

/-! # Running programs and scripts

A program is a file that can be executed or one of the programs of the shell; scripts are run command
by command. The fuel bounds how many commands are run: what takes more counts as never ending.
-/

namespace LintHub

/-- How a program ended: its status, below zero if a signal ended it, and what it printed. -/
structure Finished where
  exit : Int
  stdout : String
  stderr : String
  deriving DecidableEq, Repr

namespace Shell

/-! ## Words -/

/-- Adds text to the last field. -/
def addText (s : String) (fields : List String) (isOpen : Bool) : List String × Bool :=
  if isOpen then
    match fields.getLast? with
    | some last => (fields.dropLast ++ [last ++ s], true)
    | none => ([s], true)
  else (fields ++ [s], true)

def isFieldBlank (c : Char) : Bool := c == ' ' || c == '\t' || c == '\n'

/-- Adds text that is split at blanks. -/
def addSplit (cs : List Char) (fields : List String) (isOpen : Bool) : List String × Bool :=
  cs.foldl (fun (fields, isOpen) c =>
    if isFieldBlank c then (fields, false) else addText c.toString fields isOpen) (fields, isOpen)

/-- Adds a value: as one text where it is quoted, split otherwise. -/
def addValue (s : String) (quoted : Bool) (fields : List String) (isOpen : Bool) :
    List String × Bool :=
  if quoted then addText s fields isOpen else addSplit s.toList fields isOpen

/-- Adds every argument as a field of its own. -/
def addArguments (arguments fields : List String) (isOpen : Bool) : List String × Bool :=
  match arguments with
  | [] => (fields, isOpen)
  | a :: rest => ((addText a fields isOpen).1 ++ rest, true)

/-- What a command in a word prints, without newlines at the end. -/
def trimNewlines (s : String) : String :=
  String.ofList (s.toList.reverse.dropWhile (· == '\n')).reverse

/-! ## Streams -/

/-- Does a step and gives what it printed instead of printing it. -/
def capture {α : Type} (s : Step α) : Step (α × List (Nat × List UInt8)) := do
  let before := (← get).printed
  modify fun m => { m with printed := [] }
  let (r, m) := s.run (← get)
  let printed := m.printed
  set { m with printed := before }
  match r with
  | .ok a => return (a, printed)
  | .error stop =>
    modify fun m => { m with printed := before ++ printed }
    throw stop

/-- Does a step as a script of its own: leaving it gives its status, and what it sets is lost. -/
def isolated (s : Step Unit) : Step Unit := do
  let m ← get
  let (r, n) := s.run m
  let status : Int :=
    match r with
    | .ok () => n.status
    | .error (.leaves status) => status
    | .error _ => n.status
  set { m with
    disk := { n.disk with here := m.disk.here }
    printed := n.printed
    slept := n.slept
    status := status }
  match r with
  | .error (.signalled n) => throw (.signalled n)
  | .error .endless => throw .endless
  | _ => return ()

/-- Directories are where a program is looked for if its name has no slash. -/
def programDirectories : List String := ["/bin/", "/usr/bin/", "/usr/local/bin/"]

/-- The name of a program of the shell that a path leads to. -/
def programName (path : String) : String :=
  match programDirectories.find? fun d => d.toList.isPrefixOf path.toList with
  | some d => String.ofList (path.toList.drop d.length)
  | none => path

def isShell (name : String) : Bool := ["sh", "dash", "bash"].contains name

/-- The first line of a script after `#!`: the program that runs it and one argument at most. -/
def interpreter? (bytes : List UInt8) : Option (String × List String) :=
  match bytes with
  | 35 :: 33 :: rest =>
    let line := textOfBytes (rest.takeWhile (· != 10))
    let words := (line.splitOn " ").filter (!·.isEmpty)
    match words with
    | [] => none
    | program :: arguments =>
      some (program, if arguments.isEmpty then [] else [String.intercalate " " arguments])
  | _ => none

mutual

/-- The fields that the parts of a word come to. -/
def expand (fuel : Nat) (parts : Word) (fields : List String) (isOpen : Bool) :
    Step (List String × Bool) := do
  match fuel with
  | 0 => throw .endless
  | fuel + 1 =>
    match parts with
    | [] => return (fields, isOpen)
    | .text s _ :: parts =>
      let (fields, isOpen) := addText s fields isOpen
      expand fuel parts fields isOpen
    | .value name quoted :: parts =>
      let m ← get
      let (fields, isOpen) :=
        if name == "@" && quoted then addArguments m.arguments fields isOpen
        else addValue (m.value name) quoted fields isOpen
      expand fuel parts fields isOpen
    | .valueOr name other quoted :: parts =>
      let s := (← get).value name
      let (fields, isOpen) ←
        if s.isEmpty then expand fuel other fields isOpen
        else pure (addValue s quoted fields isOpen)
      expand fuel parts fields isOpen
    | .output body quoted :: parts =>
      let ((), printed) ← capture (isolated (runCommand fuel body))
      let out := (printed.filter fun p => p.1 = 1).flatMap (·.2)
      modify fun m => { m with printed := m.printed ++ printed.filter fun p => p.1 ≠ 1 }
      let (fields, isOpen) := addValue (trimNewlines (textOfBytes out)) quoted fields isOpen
      expand fuel parts fields isOpen

/-- The fields of several words. -/
def expandAll (fuel : Nat) (words : List Word) : Step (List String) := do
  match fuel with
  | 0 => throw .endless
  | fuel + 1 =>
    match words with
    | [] => return []
    | w :: words =>
      let (fields, _) ← expand fuel (dropMark w) [] false
      return fields ++ (← expandAll fuel words)
where
  /-- The empty text that ends what is quoted is left out after arguments, which may be none. -/
  dropMark (w : Word) : Word :=
    match w with
    | [.value "@" true, .text "" true] => [.value "@" true]
    | w => w

/-- The text of a word that is not split. -/
def expandText (fuel : Nat) (w : Word) : Step String := do
  match fuel with
  | 0 => throw .endless
  | fuel + 1 =>
    let (fields, _) ← expand fuel w [] false
    return String.intercalate " " fields

/-- Runs a command; its status is kept. -/
def runCommand (fuel : Nat) (c : Command) : Step Unit := do
  match fuel with
  | 0 => throw .endless
  | fuel + 1 =>
    match c with
    | .nothing => return ()
    | .simple line sets words =>
      modify fun m => { m with line }
      let fields ← expandAll fuel words
      setAll fuel sets
      match fields with
      | [] => setStatus 0
      | name :: arguments => setStatus (← runProgram fuel name arguments)
    | .sequence a b =>
      runCommand fuel a
      runCommand fuel b
    | .andThen a b =>
      runCommand fuel a
      if (← get).status = 0 then runCommand fuel b
    | .orElse a b =>
      runCommand fuel a
      if (← get).status ≠ 0 then runCommand fuel b
    | .negated c =>
      runCommand fuel c
      setStatus (if (← get).status = 0 then 1 else 0)
    | .choice condition yes no =>
      runCommand fuel condition
      let holds := (← get).status == 0
      setStatus 0
      runCommand fuel (if holds then yes else no)
    | .loop untilDone condition body =>
      runCommand fuel condition
      if ((← get).status == 0) != untilDone then
        runCommand fuel body
        runCommand fuel (.loop untilDone condition body)
      else setStatus 0
    | .each name words body =>
      let fields ←
        match words with
        | some ws => expandAll fuel ws
        | none => pure (← get).arguments
      setStatus 0
      runEach fuel name fields body
    | .pipe source sink =>
      let ((), printed) ← capture (isolated (runCommand fuel source))
      let input := (← get).input
      modify fun m =>
        { m with
          printed := m.printed ++ printed.filter fun p => p.1 ≠ 1
          input := (printed.filter fun p => p.1 = 1).flatMap (·.2) }
      isolated (runCommand fuel sink)
      modify fun m => { m with input }
    | .subshell body => isolated (runCommand fuel body)
    | .redirected body stream how target =>
      let place ← expandText fuel target
      redirect fuel body stream how place
where
  setStatus (status : Int) : Step Unit := modify fun m => { m with status }

/-- Sets variables. -/
def setAll (fuel : Nat) (sets : List (String × Word)) : Step Unit := do
  match fuel with
  | 0 => throw .endless
  | fuel + 1 =>
    match sets with
    | [] => return ()
    | (name, w) :: sets =>
      let s ← expandText fuel w
      modify (·.setVariable name s)
      setAll fuel sets

/-- Runs a command for each of several values of a variable. -/
def runEach (fuel : Nat) (name : String) (values : List String) (body : Command) : Step Unit := do
  match fuel with
  | 0 => throw .endless
  | fuel + 1 =>
    match values with
    | [] => return ()
    | s :: values =>
      modify (·.setVariable name s)
      runCommand fuel body
      runEach fuel name values body

/-- Runs a command with one of its streams led elsewhere. -/
def redirect (fuel : Nat) (body : Command) (stream : Nat) (how : Redirection) (place : String) :
    Step Unit := do
  match fuel with
  | 0 => throw .endless
  | fuel + 1 =>
    let p := Path.ofText place
    let refuse (verb text : String) : Step Unit := do
      complain s!"cannot {verb} {place}: {text}"
      modify fun m => { m with status := 2 }
    match how with
    | .read =>
      match ← onDisk (·.readBytes p) with
      | .error text => refuse "open" (openText text)
      | .ok bytes =>
        let input := (← get).input
        modify fun m => { m with input := bytes }
        runCommand fuel body
        modify fun m => { m with input }
    | .duplicate =>
      let ((), printed) ← capture (runCommand fuel body)
      let led := printed.map fun q => if q.1 = stream then (place.toNat?.getD 1, q.2) else q
      modify fun m => { m with printed := m.printed ++ led }
    | how =>
      if place == "/dev/null" then
        let ((), printed) ← capture (runCommand fuel body)
        modify fun m => { m with printed := m.printed ++ printed.filter fun q => q.1 ≠ stream }
      else
        let start ← onDisk fun d => do
          let old ← (if how == .append then
            (do if ← d.exists p then d.readBytes p else return []) else (.ok []))
          return (old, ← d.writeBytes p old)
        match start with
        | .error text => refuse "create" (createText text)
        | .ok (old, disk) =>
          modify fun m => { m with disk }
          let ((), printed) ← capture (runCommand fuel body)
          let bytes := (printed.filter fun q => q.1 = stream).flatMap (·.2)
          match ← onDisk (·.writeBytes p (old ++ bytes)) with
          | .ok disk => modify fun m => { m with disk }
          | .error _ => pure ()
          modify fun m => { m with printed := m.printed ++ printed.filter fun q => q.1 ≠ stream }
where
  openText (text : String) : String :=
    if text == Refusal.noEntry.text then "No such file" else text
  createText (text : String) : String :=
    if text == Refusal.noEntry.text then "Directory nonexistent" else text

/-- Runs a program from a script. -/
def runProgram (fuel : Nat) (name : String) (arguments : List String) : Step Int := do
  match fuel with
  | 0 => throw .endless
  | fuel + 1 =>
    match inner? name arguments with
    | some s => s
    | none =>
      let known := programName name
      match program? known arguments with
      | some s => s
      | none =>
        if isShell known then runShell fuel known arguments
        else if name.toList.contains '/' then runFile fuel name arguments
        else
          complain s!"{name}: not found"
          return 127

/-- Runs the shell with its own arguments: a script after `-c`, or a file. -/
def runShell (fuel : Nat) (name : String) (arguments : List String) : Step Int := do
  match fuel with
  | 0 => throw .endless
  | fuel + 1 =>
    match arguments with
    | "-c" :: script :: rest => runScript fuel (rest.headD name) (rest.drop 1) script
    | file :: rest =>
      match ← onDisk (·.readBytes (Path.ofText file)) with
      | .ok bytes => runScript fuel file rest (textOfBytes bytes)
      | .error _ =>
        printText 2 s!"{name}: 0: cannot open {file}: No such file\n"
        return 2
    | [] => runScript fuel name [] (textOfBytes (← get).input)

/-- Runs a file from a script. -/
def runFile (fuel : Nat) (path : String) (arguments : List String) : Step Int := do
  match fuel with
  | 0 => throw .endless
  | fuel + 1 =>
    match ← onDisk (·.open? path) with
    | .ok (.file bytes true) =>
      match interpreter? bytes with
      | some (program, given) =>
        let known := programName program
        if isShell known then runScript fuel path arguments (textOfBytes bytes)
        else runProgram fuel program (given ++ path :: arguments)
      | none => runScript fuel path arguments (textOfBytes bytes)
    | .ok _ =>
      complain s!"{path}: Permission denied"
      return 126
    | .error _ =>
      complain s!"{path}: not found"
      return 127

/-- Runs a script as a program of its own. -/
def runScript (fuel : Nat) (name : String) (arguments : List String) (script : String) :
    Step Int := do
  match fuel with
  | 0 => throw .endless
  | fuel + 1 =>
    let m ← get
    let start := { m with name, arguments, status := 0, line := 1 }
    let body : Step Unit :=
      match Command.ofText script with
      | .ok c => runCommand fuel c
      | .error e => do
        complain e.message
        throw (.leaves 2)
    let (r, n) := body.run start
    set { m with disk := { n.disk with here := m.disk.here }, printed := n.printed, slept := n.slept }
    match r with
    | .ok () => return n.status
    | .error (.leaves status) => return status
    | .error stop => throw stop

end

/-! ## Starting programs -/

/-- How many commands are run at most. -/
def commandLimit : Nat := 20000

/-- The text of what was printed, every line end a newline. -/
def outputText (bytes : List UInt8) : Except Fault String := do
  let s ← (Text.decodeUtf8 bytes).mapError .encoding
  return String.ofList (Text.unifyNewlines s.toList)

/-- What is started for a command: a step that gives a status. -/
def started (disk : Disk) (command : List String) : Except Fault (Step Int) := do
  match command with
  | [] => throw (.foreign (.other "IndexError") [.str "list index out of range"])
  | name :: arguments =>
    if command.any fun s => s.toList.contains (Char.ofNat 0) then throw .nullByte
    let known := programName name
    if name.isEmpty then throw (.refused .noAccess name)
    else if isShell known then return runShell commandLimit known arguments
    else
      match program? known arguments with
      | some s => return s
      | none =>
        if !name.toList.contains '/' then throw (.refused .noEntry name)
        else
          match ← disk.open? name with
          | .file bytes true =>
            match interpreter? bytes with
            | none => throw (.refused .badFormat name)
            | some (program, given) =>
              let known := programName program
              if isShell known then
                return runScript commandLimit name arguments (textOfBytes bytes)
              else
                match program? known (given ++ name :: arguments) with
                | some s => return s
                | none => throw (.refused .noEntry name)
          | _ => throw (.refused .noAccess name)

/-- Goes to the directory in which a program is started. -/
def enter (disk : Disk) (directory : Option String) : Except Fault Disk := do
  match directory with
  | none => return disk
  | some path =>
    if path.isEmpty then return disk
    else
      match ← disk.arrive true path with
      | ⟨location, some .directory⟩ => return { disk with here := location }
      | ⟨_, some _⟩ => throw (.refused .notDirectory path)
      | ⟨_, none⟩ => throw (.refused .noEntry path)

/-- Whether a program that slept so long took longer than it may, in seconds. -/
def isLate (slept : Nat) (timeout : Json) : Bool :=
  match timeout with
  | .int n => n * 1000000 ≤ slept
  | .float x => (Binary64.ofRatio false slept 1000000).lt x == false
  | _ => false

/-- Runs a command in a directory and waits for its end. -/
def run (directory : Option String) (command : List String) (timeout : Json) :
    Act Disk Finished := do
  let disk ← get
  let there ← (enter disk directory : Except Fault Disk)
  let step ← (started there command : Except Fault (Step Int))
  let (r, m) := step.run ⟨there, command.headD "", [], [], 0, [], [], 0, 1⟩
  set { m.disk with here := disk.here }
  let late : Fault := .timeout (command.map .str) timeout
  if isLate m.slept timeout then throw late
  let exit ←
    match r with
    | .ok status => pure status
    | .error (.leaves status) => pure status
    | .error (.signalled n) => pure (-(n : Int))
    | .error .endless => throw late
  let stdout ← (outputText (m.printedTo 1) : Except Fault String)
  let stderr ← (outputText (m.printedTo 2) : Except Fault String)
  return ⟨exit, stdout, stderr⟩

end Shell

end LintHub
