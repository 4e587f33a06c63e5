import LintHub.Files.Disk
import LintHub.Json.Coerce

/-! # Where paths lead

Resolving a path replaces links by what they point to; steps that do not exist are taken as they
stand. A finding's path is reported relative to what was analysed.
-/

namespace LintHub

/-- The links met so far: where each leads, or nothing while it is still being followed. -/
abbrev Followed := List (Location × Option Location)

/-- Takes steps upwards back, by the text alone. -/
def foldSteps (steps : Location) : Location :=
  steps.foldl (fun done step =>
    if step = ".." then done.dropLast
    else if step = "." then done
    else done ++ [step]) []

namespace Disk

/-- Follows steps from `done`. The flag tells whether that came to an end: a link that leads to itself
stays as it is, and so do the steps after it. -/
def trace (d : Disk) (fuel : Nat) (seen : Followed) (done : Location) (steps : List String) :
    Location × Bool × Followed :=
  match steps with
  | [] => (done, true, seen)
  | step :: rest =>
    if step = "." then trace d fuel seen done rest
    else if step = ".." then trace d fuel seen done.dropLast rest
    else
      let next := done ++ [step]
      match d.lookup next with
      | some (.link target) =>
        match seen.lookup next, fuel with
        | some (some location), fuel => trace d fuel seen location rest
        | none, fuel + 1 =>
          let start := if startsAtRoot target then [] else done
          match trace d fuel ((next, none) :: seen) start (rawSteps target) with
          | (location, true, seen) =>
            trace d (fuel + 1) ((next, some location) :: seen) location rest
          | (location, false, seen) => (location ++ rest, false, seen)
        | _, _ => (next ++ rest, false, seen)
      | _ => trace d fuel seen next rest
termination_by (fuel, steps.length)

/-- The absolute path that a path leads to, without links. -/
def resolve (d : Disk) (p : Path) : Except Fault Path :=
  if p.text.toList.contains '\x00' then .error .nullByte
  else
    let start := if p.isAbsolute then [] else d.here
    let (location, _, _) := d.trace (d.entries.length + 1) [] start p.parts
    let q : Path := ⟨1, foldSteps location⟩
    match d.arrive true q.text with
    | .error (.refused .tooManyLinks path) => .error (.linkLoop path)
    | _ => .ok q

end Disk

/-- Drops one step in front that stays in place. -/
def dropHere : List Char → List Char
  | '.' :: '/' :: cs => cs
  | cs => cs

/-- A path as a tool reports it, with slashes only. -/
def reportedPath (name : String) : Path :=
  let cs := name.toList.map fun c => if c == '\\' then '/' else c
  Path.ofText (String.ofList (dropHere cs))

/-- A path relative to the directory `base`; none if it lies elsewhere. -/
def Disk.within (d : Disk) (base p : Path) : Except Fault (Option Path) := do
  let base ← d.resolve base
  if p.isAbsolute then return (← d.resolve p).relativeTo? base
  else return none

/-- The path of a finding: relative to `root`, a directory or a file in one, when it lies inside, and
as it was reported when not. -/
def relativePath (d : Disk) (name : Json) (root : Option Path) : Except Fault String := do
  if name.isBlank then return ""
  else
    let p := reportedPath (← name.textFor "replace")
    match root with
    | none => return p.text
    | some root =>
      let base := if ← d.isDirectory root then root else root.parent
      match d.within base p with
      | .ok (some q) => return q.text
      | .ok none => return p.text
      | .error f => if f.isOneOf [.system, .value] then return p.text else throw f

end LintHub
