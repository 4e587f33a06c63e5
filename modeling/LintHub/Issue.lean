import LintHub.Severity
import LintHub.Digest.Sha1

/-! # Issues

One finding of one tool. The text fields keep whatever value a document held; line and column are
integers.
-/

namespace LintHub

structure Issue where
  id : Json
  message : Json
  filePath : Json
  line : Int
  column : Int
  severity : Severity
  category : Category
  ruleId : Json
  toolName : Json
  /-- A suggestion that is there but empty is kept apart from none. -/
  fixSuggestion : Option Json
  deriving Repr

/-- What makes two issues the same: file, line and rule, compared as keys. -/
structure IssueKey where
  filePath : Identity
  line : Int
  ruleId : Identity
  deriving DecidableEq, Repr

/-- The text whose digest identifies a finding. -/
def issueIdText (tool filePath line ruleId message : Json) : String :=
  String.intercalate "|" ([tool, filePath, line, ruleId, message].map Json.display)

def issueId (tool filePath line ruleId message : Json) : String :=
  Sha1.hexOfText (issueIdText tool filePath line ruleId message)

namespace Issue

def key (i : Issue) : Except Fault IssueKey := do
  let filePath ← i.filePath.toScalar
  let ruleId ← i.ruleId.toScalar
  return ⟨filePath.identity, i.line, ruleId.identity⟩

def toJson (i : Issue) : Json :=
  .obj <|
    [ ("id", i.id), ("message", i.message), ("file_path", i.filePath),
      ("line_number", .int i.line), ("column_number", .int i.column),
      ("severity", .str i.severity.label), ("category", .str i.category.label),
      ("rule_id", i.ruleId), ("tool_name", i.toolName) ] ++
    (i.fixSuggestion.map fun v => ("fix_suggestion", v)).toList

/-- The issue that a document describes; what it leaves out is empty. -/
def ofJson (v : Json) : Except Fault Issue := do
  let d ← v.fieldsFor "get"
  let text (name : String) : Json := d.valueOr name (.str "")
  let line ← (d.valueOr "line_number" (.int 0)).toInt
  let column ← (d.valueOr "column_number" (.int 0)).toInt
  let severity ← Severity.ofJson ((d.get? "severity").getD (.str "warning"))
  let category ← Category.ofJson ((d.get? "category").getD (.str "style"))
  return {
    id := text "id"
    message := text "message"
    filePath := text "file_path"
    line, column, severity, category
    ruleId := text "rule_id"
    toolName := text "tool_name"
    fixSuggestion := match d.value "fix_suggestion" with
      | .null => none
      | v => some v }

end Issue

end LintHub
