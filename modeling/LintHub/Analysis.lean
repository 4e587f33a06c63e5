import LintHub.Issue
import LintHub.Tally

/-! # Analyses

What one run of one tool found: its issues, how many files it looked at, how long it took, and
whether it succeeded. Counts are taken from the issues whenever they are asked for.
-/

namespace LintHub

open Time

/-- The message of a failed analysis that does not say why. -/
def unknownFailure : String := "Tool execution failed"

/-- What a new analysis is marked with. -/
structure Stamp where
  id : String
  time : Moment
  deriving Repr

structure Analysis where
  toolName : Json
  id : Json
  timestamp : Moment
  issues : List Issue
  filesAnalyzed : Int
  executionTime : Span
  success : Bool
  errorMessage : Json
  deriving Repr

namespace Analysis

/-- A successful analysis without issues. -/
def new (stamp : Stamp) (toolName : Json) : Analysis :=
  ⟨toolName, .str stamp.id, stamp.time, [], 0, Span.zero, true, .str ""⟩

/-- A failed analysis, which has to say why. -/
def failure (stamp : Stamp) (toolName message : Json) : Except Fault Analysis :=
  if message.isBlank then .error .silentFailure
  else .ok { new stamp toolName with success := false, errorMessage := message }

/-- A failed analysis with a message that is known not to be empty. -/
def failed (stamp : Stamp) (toolName message : String) : Analysis :=
  { new stamp (.str toolName) with success := false, errorMessage := .str message }

def bySeverity (a : Analysis) : Tally Severity :=
  Tally.ofList (fun s => s) (a.issues.map (·.severity))

def byCategory (a : Analysis) : Tally Category :=
  Tally.ofList (fun s => s) (a.issues.map (·.category))

def addIssue (a : Analysis) (i : Issue) : Analysis :=
  { a with issues := a.issues ++ [i] }

def issuesAtLeast (a : Analysis) (s : Severity) : List Issue :=
  a.issues.filter fun i => s ≤ i.severity

def issuesIn (a : Analysis) (c : Category) : List Issue :=
  a.issues.filter fun i => i.category = c

/-- A tally as an object, a name for each key. -/
def tallyJson {κ : Type} (label : κ → String) (t : Tally κ) : Json :=
  .obj (t.map fun p => (label p.1, .int p.2))

/-- The analysis as a document; its time has to lie in the calendar in UTC too. -/
def toJson (a : Analysis) : Except Fault Json :=
  match a.timestamp.text with
  | .error e => .error (.moment e)
  | .ok time =>
    .ok (.obj
      [ ("tool_name", a.toolName), ("analysis_id", a.id), ("timestamp", .str time),
        ("files_analyzed", .int a.filesAnalyzed),
        ("execution_time_ms", .int a.executionTime.millis), ("success", .bool a.success),
        ("error_message", a.errorMessage), ("issues", .arr (a.issues.map Issue.toJson)),
        ("issue_counts_by_severity", tallyJson Severity.label a.bySeverity),
        ("issue_counts_by_category", tallyJson Category.label a.byCategory) ])

/-- The moment that a document gives; `now` if it gives none. -/
def momentOf (now : Moment) (v : Json) : Except Fault Moment :=
  if v.isBlank then .ok now
  else
    match v with
    | .str s => (Time.parse s).mapError .moment
    | v => .error (.misused .moment v.kind)

/-- The analysis that a document describes. Counts in the document are not looked at. -/
def ofJson (now : Moment) (v : Json) : Except Fault Analysis := do
  let d ← v.fieldsFor "get"
  let text (name : String) : Json := d.valueOr name (.str "")
  let success := !((d.get? "success").getD (.bool true)).isBlank
  let timestamp ← momentOf now (d.value "timestamp")
  let issues ← (← (d.valueOr "issues" (.arr [])).items).mapM Issue.ofJson
  let filesAnalyzed ← (d.valueOr "files_analyzed" (.int 0)).toInt
  let millis ← (d.valueOr "execution_time_ms" (.int 0)).toInt
  let executionTime ← (Span.ofMillis millis).mapError .span
  return {
    toolName := text "tool_name"
    id := text "analysis_id"
    timestamp, issues, filesAnalyzed, executionTime, success
    errorMessage := d.valueOr "error_message" (.str (if success then "" else unknownFailure)) }

/-- Fills in the message of a failed analysis that has none. -/
def explained (a : Analysis) : Analysis :=
  if !a.success && a.errorMessage.isBlank then { a with errorMessage := .str unknownFailure } else a

end Analysis

end LintHub
