import LintHub.Files.Path
import LintHub.Text.Lines

/-! # Files on disk

Directories, files and links by location, the steps from the root. A path is walked step by step
from the working directory; links are followed on the way, forty of them at most.
-/

namespace LintHub

inductive Entry where
  | directory
  | file (bytes : List UInt8) (executable : Bool)
  | link (target : String)
  deriving DecidableEq, Repr

/-- Steps from the root. -/
abbrev Location := List String

structure Disk where
  entries : List (Location × Entry)
  /-- The working directory. -/
  here : Location
  deriving Repr

/-- Where a walk ended and what stands there; only the last step may be missing. -/
structure Arrival where
  location : Location
  entry : Option Entry
  deriving Repr

/-- The steps of a path as the system reads it: a slash at the end asks for a directory. -/
def rawSteps (s : String) : List String :=
  let steps := ((Path.splitSteps s.toList).filter (!·.isEmpty)).map String.ofList
  if s.toList.getLast? == some '/' then steps ++ ["."] else steps

def startsAtRoot (s : String) : Bool :=
  s.toList.head? == some '/'

namespace Disk

/-- A disk that holds a working directory and nothing else. -/
def empty (here : Location) : Disk :=
  ⟨(List.range here.length).map fun k => (here.take (k + 1), .directory), here⟩

def lookup (d : Disk) (l : Location) : Option Entry :=
  if l.isEmpty then some .directory else d.entries.lookup l

/-- Puts an entry at a location, in place of the one that was there. -/
def put (d : Disk) (l : Location) (e : Entry) : Disk :=
  { d with entries := (l, e) :: d.entries.filter fun p => p.1 != l }

/-- The most links that one walk follows. -/
def linkLimit : Nat := 40

/-- The most bytes in one step. -/
def nameLimit : Nat := 255

/-- The most bytes in a whole path. -/
def pathLimit : Nat := 4095

/-- Walks the steps from the directory `at'`. A link in the last step is followed if `follow` says
so. -/
def walk (d : Disk) (follow : Bool) (links : Nat) (at' : Location) (steps : List String) :
    Except Refusal Arrival :=
  match steps with
  | [] => .ok ⟨at', some .directory⟩
  | step :: rest =>
    if step = "." then walk d follow links at' rest
    else if step = ".." then walk d follow links at'.dropLast rest
    else if nameLimit < step.utf8ByteSize then .error .nameTooLong
    else
      let next := at' ++ [step]
      match d.lookup next with
      | none => if rest.isEmpty then .ok ⟨next, none⟩ else .error .noEntry
      | some .directory => walk d follow links next rest
      | some (.file bytes executable) =>
        if rest.isEmpty then .ok ⟨next, some (.file bytes executable)⟩ else .error .notDirectory
      | some (.link target) =>
        if rest.isEmpty && !follow then .ok ⟨next, some (.link target)⟩
        else
          match links with
          | 0 => .error .tooManyLinks
          | links + 1 =>
            walk d follow links (if startsAtRoot target then [] else at') (rawSteps target ++ rest)
termination_by (links, steps.length)

/-- Walks the text of a path. -/
def arrive (d : Disk) (follow : Bool) (s : String) : Except Fault Arrival :=
  if s.toList.contains '\x00' then .error .nullByte
  else if s.isEmpty then .error (.refused .noEntry s)
  else if pathLimit < s.utf8ByteSize then .error (.refused .nameTooLong s)
  else
    (d.walk follow linkLimit (if startsAtRoot s then [] else d.here) (rawSteps s)).mapError
      (.refused · s)

/-- The entry that the text of a path leads to. -/
def open? (d : Disk) (s : String) : Except Fault Entry := do
  let a ← d.arrive true s
  match a.entry with
  | some e => return e
  | none => throw (.refused .noEntry s)

/-- Faults that only tell that nothing is there. -/
def isAbsence : Fault → Bool
  | .nullByte => true
  | .refused r _ => r == .noEntry || r == .notDirectory || r == .tooManyLinks
  | _ => false

/-- The entry that a path leads to, if there is one. -/
def status (d : Disk) (p : Path) : Except Fault (Option Entry) :=
  match d.open? p.text with
  | .ok e => .ok (some e)
  | .error f => if isAbsence f then .ok none else .error f

def «exists» (d : Disk) (p : Path) : Except Fault Bool :=
  (d.status p).map (·.isSome)

def isDirectory (d : Disk) (p : Path) : Except Fault Bool :=
  (d.status p).map (· == some .directory)

def isFile (d : Disk) (p : Path) : Except Fault Bool :=
  (d.status p).map fun
    | some (.file _ _) => true
    | _ => false

def readBytes (d : Disk) (p : Path) : Except Fault (List UInt8) := do
  match ← d.open? p.text with
  | .file bytes _ => return bytes
  | _ => throw (.refused .isDirectory p.text)

/-- The text of a file, every line end a newline. -/
def readText (d : Disk) (p : Path) : Except Fault String := do
  let s ← (Text.decodeUtf8 (← d.readBytes p)).mapError .encoding
  return String.ofList (Text.unifyNewlines s.toList)

/-- Writes a whole file; a new one is not executable. -/
def writeBytes (d : Disk) (p : Path) (bytes : List UInt8) : Except Fault Disk := do
  let a ← d.arrive true p.text
  match a.entry with
  | none => return d.put a.location (.file bytes false)
  | some (.file _ executable) => return d.put a.location (.file bytes executable)
  | _ => throw (.refused .isDirectory p.text)

def writeText (d : Disk) (p : Path) (s : String) : Except Fault Disk :=
  d.writeBytes p (Text.encodeUtf8 s)

/-- Makes one directory; something must not stand there yet. -/
def makeDirectory (d : Disk) (p : Path) : Except Fault Disk := do
  let a ← d.arrive false p.text
  match a.entry with
  | none => return d.put a.location .directory
  | some _ => throw (.refused .alreadyThere p.text)

/-- Makes a directory unless it is there. -/
def ensureDirectory (d : Disk) (p : Path) : Except Fault Disk :=
  match d.makeDirectory p with
  | .ok d => .ok d
  | .error f =>
    if f.kind == .notFound || f.kind == .value then .error f
    else do if ← d.isDirectory p then return d else throw f

/-- Makes a directory and those that lead to it, each unless it is there. -/
def ensureDirectories (d : Disk) (slashes : Nat) (parts : List String) : Except Fault Disk :=
  match d.ensureDirectory ⟨slashes, parts⟩ with
  | .ok d => .ok d
  | .error f =>
    if _h : f.kind = .notFound ∧ parts ≠ [] then do
      let d ← ensureDirectories d slashes parts.dropLast
      d.ensureDirectory ⟨slashes, parts⟩
    else .error f
termination_by parts.length
decreasing_by
  have := List.length_pos_iff.mpr _h.2
  simp only [List.length_dropLast]
  omega

def makeDirectories (d : Disk) (p : Path) : Except Fault Disk :=
  d.ensureDirectories p.slashes p.parts

/-- Makes a link, with the directories that lead to it. -/
def makeLink (d : Disk) (p : Path) (target : String) : Except Fault Disk := do
  let d ← d.makeDirectories p.parent
  let a ← d.arrive false p.text
  match a.entry with
  | none => return d.put a.location (.link target)
  | some _ => throw (.refused .alreadyThere p.text)

/-- Makes a file, with the directories that lead to it. -/
def makeFile (d : Disk) (p : Path) (bytes : List UInt8) (executable : Bool) :
    Except Fault Disk := do
  let d ← d.makeDirectories p.parent
  let d ← d.writeBytes p bytes
  let a ← d.arrive true p.text
  return d.put a.location (.file bytes executable)

end Disk

end LintHub
