import LintHub.Files.Disk
import LintHub.Text.Casing

/-! # Source files

The files under a directory that a tool looks at, by suffix. Directories of version control,
environments and caches are left out; links to directories are not entered.
-/

namespace LintHub

def skippedDirectories : List String :=
  [ ".git", ".venv", "venv", "node_modules", "__pycache__", "__MACOSX", ".mypy_cache",
    ".ruff_cache" ]

/-- Compares paths step by step. -/
def stepsBefore : List String → List String → Bool
  | [], _ => true
  | _ :: _, [] => false
  | a :: as, b :: bs => if a = b then stepsBefore as bs else decide (a < b)

namespace Disk

/-- Everything below a directory, as steps from it, in order. -/
def below (d : Disk) (l : Location) : List (List String) :=
  let inside := d.entries.filterMap fun p =>
    if l.isPrefixOf p.1 && l.length < p.1.length then some (p.1.drop l.length) else none
  inside.mergeSort stepsBefore

/-- Goes through everything below the directory that `source` leads to. Each directory on the way is
listed by its path, which can be too long for that. -/
def listBelow (d : Disk) (source : Path) (l : Location) : Except Fault (List (List String)) :=
  let found := d.below l
  let unlistable := fun steps =>
    d.lookup (l ++ steps) == some .directory &&
      decide (pathLimit < (source.child steps).text.utf8ByteSize)
  match found.find? unlistable with
  | some steps => .error (.refused .nameTooLong (source.child steps).text)
  | none => .ok found

def hasSuffix (extensions : List String) (p : Path) : Bool :=
  (extensions.map Text.lower).contains (Text.lower p.suffix)

/-- The files to look at: `source` itself if it is one, else those below it. -/
def sources (d : Disk) (source : Path) (extensions : List String) : Except Fault (List Path) := do
  if ← d.isFile source then
    return if hasSuffix extensions source then [source] else []
  else if !(← d.isDirectory source) then return []
  else
    let a ← d.arrive true source.text
    let found := (← d.listBelow source a.location).filter fun steps =>
      !steps.any skippedDirectories.contains
    (found.map source.child).filterM fun p => do
      return (← d.isFile p) && hasSuffix extensions p

end Disk

end LintHub
