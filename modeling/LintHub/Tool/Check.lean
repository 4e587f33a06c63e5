import LintHub.Tool.Config
import LintHub.Files.Disk
import LintHub.Text.Lines
import LintHub.Validation

/-! # Checking configurations

What a configuration has to satisfy before a tool is run with it. Paths are those that the run will
use: a request's own where it gives them, else the configured ones.
-/

namespace LintHub

/-- What a run is about, wherever it was given. -/
structure Target where
  sourcePath : Json
  outputFile : Json
  includePaths : List Json
  definitions : List Json
  deriving Repr

namespace Config

/-- The target that is configured. -/
def target (c : Config) : Target :=
  ⟨.str c.sourcePath, .str c.outputFile, c.includePaths.map .str, c.definitions.map .str⟩

/-- The list, or `fallback` if it is empty. -/
def listOr {α : Type} (xs fallback : List α) : List α :=
  if xs.isEmpty then fallback else xs

/-- The target of a request on top of the configured one. -/
def targetFor (c : Config) (r : Request) : Target :=
  { sourcePath := r.sourcePath.orElse (.str c.sourcePath)
    outputFile := r.outputFile.orElse (.str c.outputFile)
    includePaths := listOr r.includePaths (c.includePaths.map .str)
    definitions := listOr r.definitions (c.definitions.map .str) }

/-! ## Forms of names -/

/-- `py3` and one or two digits. -/
def isTargetVersion (s : String) : Bool :=
  Text.holdsOnLine (fun
    | 'p' :: 'y' :: '3' :: ds => (ds.length = 1 || ds.length = 2) && ds.all Text.isDigit
    | _ => false) s.toList

def isCapital (c : Char) : Bool :=
  'A' ≤ c && c ≤ 'Z'

/-- Capital letters and then plain digits. -/
def isRuleSelector (s : String) : Bool :=
  Text.holdsOnLine (fun cs =>
    !(cs.takeWhile isCapital).isEmpty && (cs.dropWhile isCapital).all Char.isDigit) s.toList

/-- `B` and three digits. -/
def isTestId (s : String) : Bool :=
  Text.holdsOnLine (fun
    | 'B' :: ds => ds.length = 3 && ds.all Text.isDigit
    | _ => false) s.toList

def levels : List String := ["all", "low", "medium", "high"]

/-! ## Rules -/

/-- Whether a blank stands in a definition. A list or object is asked for an item or field. -/
def holdsBlank : Json → Except Fault Bool
  | .str s => .ok (s.toList.contains ' ')
  | .arr vs => .ok (vs.any (Json.isText " "))
  | .obj fs => .ok (Fields.get? fs " ").isSome
  | v => .error (.format ("argument of type '" ++ v.kind.label ++ "' is not iterable"))

def checkSource (disk : Disk) (source : Json) (v : Validation) : Except Fault Validation := do
  if source.isBlank then return v.error "Source path cannot be empty"
  else if ← disk.exists (← Path.ofJson source) then return v
  else return v.error ("Source path does not exist: " ++ source.display)

def checkOutput (disk : Disk) (output : Json) (v : Validation) : Except Fault Validation := do
  if output.isBlank then
    return v.warning "Output file not specified, results may not be saved"
  else
    let directory := (← Path.ofJson output).parent
    if directory.text == "." then return v
    else if ← disk.exists directory then return v
    else return v.error ("Output directory does not exist: " ++ directory.text)

def checkInclude (disk : Disk) (v : Validation) (path : Json) : Except Fault Validation := do
  if ← disk.exists (← Path.ofJson path) then return v
  else return v.warning ("Include path does not exist: " ++ path.display)

def checkDefinition (v : Validation) (definition : Json) : Except Fault Validation := do
  if definition.isBlank then return v.warning "Empty definition found"
  else if ← holdsBlank definition then
    return v.warning ("Definition contains spaces: " ++ definition.display)
  else return v

/-- The texts that stand in both lists, in order and without repeats. -/
def inBoth (xs ys : List String) : List String :=
  ((xs.filter ys.contains).mergeSort fun a b => decide (a ≤ b)).eraseDups

def checkRuff (o : RuffOptions) (v : Validation) : Validation :=
  let v :=
    match o.lineLength with
    | some n =>
      if 1 ≤ n ∧ n ≤ 320 then v
      else v.error ("Line length must be between 1 and 320: " ++ Text.intText n)
    | none => v
  let v :=
    match o.targetVersion with
    | some s =>
      if s.isEmpty || isTargetVersion s then v else v.error ("Unknown target version: " ++ s)
    | none => v
  let odd := (o.select ++ o.extendSelect ++ o.ignore).filter fun s => !isRuleSelector s
  let v := odd.foldl (fun v s => v.warning ("Suspicious rule selector: " ++ s)) v
  let both := inBoth o.select o.ignore
  if both.isEmpty then v
  else v.warning ("Rules both selected and ignored: " ++ String.intercalate ", " both)

def checkBandit (o : BanditOptions) (v : Validation) : Validation :=
  let v :=
    if levels.contains o.severityLevel then v
    else v.error ("Invalid severity level: " ++ o.severityLevel)
  let v :=
    if levels.contains o.confidenceLevel then v
    else v.error ("Invalid confidence level: " ++ o.confidenceLevel)
  let odd := (o.skips ++ o.tests).filter fun s => !isTestId s
  let v := odd.foldl (fun v s => v.warning ("Unknown bandit test id: " ++ s)) v
  let both := inBoth o.skips o.tests
  if both.isEmpty then v
  else v.warning ("Tests both selected and skipped: " ++ String.intercalate ", " both)

def checkSpecialRules (special : Special) (v : Validation) : Validation :=
  match special with
  | .base => v
  | .ruff o => checkRuff o v
  | .bandit o => checkBandit o v

/-- Checks a configuration for a target. -/
def validateFor (disk : Disk) (c : Config) (t : Target) : Except Fault Validation := do
  let v := if c.toolName.isEmpty then Validation.empty.error "Tool name cannot be empty" else .empty
  let v ← checkSource disk t.sourcePath v
  let v ← checkOutput disk t.outputFile v
  let v ← t.includePaths.foldlM (checkInclude disk) v
  let v ← t.definitions.foldlM checkDefinition v
  let v := if c.timeout ≤ 0 then v.error "Timeout must be a positive number of seconds" else v
  return checkSpecialRules c.special v

def validate (disk : Disk) (c : Config) : Except Fault Validation :=
  c.validateFor disk c.target

end Config

end LintHub
