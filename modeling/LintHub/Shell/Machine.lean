import LintHub.Files.Disk
import LintHub.World

/-! # The state of a running script

Files, variables and arguments, and what was printed so far, each piece with the stream it was printed
to. A script may end early: by leaving, by a signal, or by never ending.
-/

namespace LintHub.Shell

inductive Stop where
  | leaves (status : Int)
  | signalled (signal : Nat)
  /-- It does not end in any time that is allowed. -/
  | endless
  deriving DecidableEq, Repr

structure Machine where
  disk : Disk
  /-- What the script calls itself. -/
  name : String
  arguments : List String
  bindings : List (String × String)
  status : Int
  input : List UInt8
  /-- What was printed: the stream, 1 or 2, and the bytes. -/
  printed : List (Nat × List UInt8)
  /-- How long programs have slept, in microseconds. -/
  slept : Nat
  /-- The line of the command that is run. -/
  line : Nat
  deriving Repr

abbrev Step := ExceptT Stop (StateM Machine)

namespace Machine

def printedTo (m : Machine) (stream : Nat) : List UInt8 :=
  (m.printed.filter fun p => p.1 = stream).flatMap (·.2)

/-- The number under which a script knows itself. -/
def number : String := "4242"

/-- The value of a name; the arguments are joined by blanks. -/
def value (m : Machine) (name : String) : String :=
  match name with
  | "0" => m.name
  | "#" => Text.natText m.arguments.length
  | "?" => Text.intText m.status
  | "$" => number
  | "@" | "*" => String.intercalate " " m.arguments
  | "PWD" => "/" ++ String.intercalate "/" m.disk.here
  | name =>
    match name.toNat? with
    | some n => m.arguments.getD (n - 1) ""
    | none => (m.bindings.lookup name).getD ""

def setVariable (m : Machine) (name value : String) : Machine :=
  { m with bindings := (name, value) :: m.bindings.filter fun p => p.1 ≠ name }

end Machine

def printBytes (stream : Nat) (bytes : List UInt8) : Step Unit :=
  modify fun m => { m with printed := m.printed ++ [(stream, bytes)] }

def printText (stream : Nat) (s : String) : Step Unit :=
  printBytes stream (Text.encodeUtf8 s)

/-- Complains with the script's name and the line. -/
def complain (text : String) : Step Unit := do
  let m ← get
  printText 2 s!"{m.name}: {Text.natText m.line}: {text}\n"

/-- A disk operation; a fault is given as its plain text. -/
def onDisk {α : Type} (f : Disk → Except Fault α) : Step (Except String α) := do
  match f (← get).disk with
  | .ok a => return .ok a
  | .error (.refused r _) => return .error r.text
  | .error f => return .error f.message

/-- Characters as bytes are not always text; malformed parts are left out. -/
def textOfBytes (bs : List UInt8) : String :=
  match Text.decodeUtf8 bs with
  | .ok s => s
  | .error e =>
    match Text.decodeUtf8 (bs.take e.position) with
    | .ok s => s
    | .error _ => ""

end LintHub.Shell
