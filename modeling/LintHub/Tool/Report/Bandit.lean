import LintHub.Issue
import LintHub.Files.Resolve
import LintHub.World

/-! # Bandit reports

A report is an object with findings, files that could not be scanned, and figures for each file.
Columns are counted from zero in it.
-/

namespace LintHub.BanditReport

def severityOf (name : String) : Severity :=
  if name == "LOW" then .warning
  else if name == "MEDIUM" then .error
  else if name == "HIGH" then .critical
  else .warning

/-- The column of a finding, counted from one; zero if it has none. -/
def columnOf (d : Fields) : Except Fault Int :=
  match d.value "col_offset" with
  | .null => .ok 0
  | v => v.toInt.map (· + 1)

def issueOf (disk : Disk) (root : Option Path) (v : Json) : Except Fault Issue := do
  let d ← v.fieldsFor "get"
  let filePath ← relativePath disk (.str (d.valueOr "filename" (.str "")).display) root
  let line ← (d.valueOr "line_number" (.int 0)).toInt
  let column ← columnOf d
  let message := d.valueOr "issue_text" (.str "Bandit finding")
  let rule := (d.valueOr "test_id" (d.valueOr "test_name" (.str ""))).display
  let moreInfo := d.value "more_info"
  let severity ← (d.valueOr "issue_severity" (.str "")).textFor "upper"
  return {
    id := .str (issueId (.str "bandit") (.str filePath) (.int line) (.str rule) message)
    message
    filePath := .str filePath
    line, column
    severity := severityOf (Text.upper severity)
    category := .security
    ruleId := .str rule
    toolName := .str "bandit"
    fixSuggestion := if moreInfo.isBlank then none else some (.str ("See " ++ moreInfo.display)) }

/-- Reports a file that could not be scanned. -/
def reportSkipped (v : Json) : Act World Unit := do
  let d ← (v.fieldsFor "get" : Except Fault Fields)
  note .warning .bandit
    ("bandit could not scan " ++ (d.value "filename").display ++ ": " ++
      (d.value "reason").display)
    (some "bandit")

/-- How many files the figures are about; nothing where there are no figures. -/
def filesOf (d : Fields) : Except Fault (Option Int) := do
  let metrics := d.valueOr "metrics" (.obj [])
  let names ← metrics.items
  return if metrics.isBlank then none
    else some (names.filter fun k => !k.isText "_totals").length

/-- The issues in the text of a report and the number of files it is about. An empty text is an empty
report. -/
def read (root : Option Path) (text : String) : Act World (List Issue × Option Int) := do
  let doc ← ((Json.read (if text.isEmpty then "\x7b\x7d" else text)).mapError .json
    : Except Fault Json)
  let d ← (doc.fieldsFor "get" : Except Fault Fields)
  let errors ← ((d.valueOr "errors" (.arr [])).items : Except Fault (List Json))
  errors.forM reportSkipped
  let disk := (← get).disk
  let found ← ((d.valueOr "results" (.arr [])).items : Except Fault (List Json))
  let issues ← (found.mapM (issueOf disk root) : Except Fault (List Issue))
  let files ← (filesOf d : Except Fault (Option Int))
  return (issues, files)

end LintHub.BanditReport
