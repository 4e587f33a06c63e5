import LintHub.Fault

/-! # Paths

A path is the steps from the working directory or from the root. Reading one drops empty steps and
steps that stay in place; steps upwards are kept, since links decide where they lead.
-/

namespace LintHub

structure Path where
  /-- Slashes in front: none for a relative path, one or exactly two for an absolute one. -/
  slashes : Nat
  parts : List String
  deriving DecidableEq, Repr

namespace Path

/-- Splits at every slash. -/
def splitSteps : List Char → List (List Char)
  | [] => [[]]
  | c :: cs =>
    if c = '/' then [] :: splitSteps cs
    else
      match splitSteps cs with
      | [] => [[c]]
      | s :: rest => (c :: s) :: rest

/-- Whether a step leads anywhere. -/
def isStep (cs : List Char) : Bool :=
  !cs.isEmpty && cs != ['.']

def ofText (s : String) : Path :=
  let cs := s.toList
  let leading := (cs.takeWhile (· == '/')).length
  { slashes := if leading = 2 then 2 else min leading 1
    parts := ((splitSteps cs).filter isStep).map String.ofList }

def text (p : Path) : String :=
  if p.slashes = 0 && p.parts.isEmpty then "."
  else
    String.ofList (List.replicate p.slashes '/') ++ String.intercalate "/" p.parts

def isAbsolute (p : Path) : Bool :=
  p.slashes != 0

/-- The last step; empty where there is none. -/
def name (p : Path) : String :=
  p.parts.getLast?.getD ""

/-- A path without steps is its own parent. -/
def parent (p : Path) : Path :=
  { p with parts := p.parts.dropLast }

def child (p : Path) (steps : List String) : Path :=
  { p with parts := p.parts ++ steps }

/-- Splits a name before its last point, unless that is the first or the last character. -/
def splitSuffix (name : String) : String × String :=
  let cs := name.toList
  let tail := (cs.reverse.takeWhile (· != '.')).reverse
  let head := cs.take (cs.length - tail.length - 1)
  if tail.length < cs.length && !head.isEmpty && !tail.isEmpty then
    (String.ofList head, String.ofList ('.' :: tail))
  else (name, "")

def stem (p : Path) : String :=
  (splitSuffix p.name).1

def suffix (p : Path) : String :=
  (splitSuffix p.name).2

/-- Replaces the last step by a name, which has to be one step. -/
def withName (p : Path) (name : String) : Except Fault Path :=
  let q := ofText name
  if p.name.isEmpty then .error (.emptyName p.text)
  else if q.isAbsolute || q.parts.length != 1 || name.toList.getLast? == some '/' then
    .error (.invalidName name)
  else .ok { p with parts := p.parts.dropLast ++ [name] }

/-- The steps that lead from `base` to `p`, if `p` starts with `base`. -/
def relativeTo? (p base : Path) : Option Path :=
  if p.slashes = base.slashes && base.parts.isPrefixOf p.parts then
    some ⟨0, p.parts.drop base.parts.length⟩
  else none

/-- A path given as a value. -/
def ofJson : Json → Except Fault Path
  | .str s => .ok (ofText s)
  | v => .error (.misused .path v.kind)

end Path

/-- Where a tool of a batch writes its output: the tool's name stands before the suffix. -/
def toolOutputPath (output : Json) (tool : String) : Except Fault Json :=
  if output.isBlank then .ok output
  else do
    let p ← Path.ofJson output
    let q ← p.withName (p.stem ++ "_" ++ tool ++ p.suffix)
    return .str q.text

end LintHub
