import LintHub.Issue
import LintHub.Files.Resolve

/-! # Ruff reports

A report is a list of diagnostics. Severity and category follow from the rule's code: a few prefixes
come first, then the family that the capital letters in front name.
-/

namespace LintHub.RuffReport

def families : List (String × (Severity × Category)) :=
  [ ("E", (.info, .style)), ("W", (.info, .style)), ("I", (.info, .style)),
    ("D", (.info, .style)), ("N", (.info, .style)), ("Q", (.info, .style)),
    ("F", (.warning, .bug)), ("B", (.warning, .bug)), ("PLE", (.error, .bug)),
    ("PLW", (.warning, .bug)), ("PLR", (.info, .maintainability)), ("PLC", (.info, .style)),
    ("S", (.warning, .security)), ("PERF", (.info, .performance)), ("C", (.info, .performance)),
    ("UP", (.info, .modernization)), ("PTH", (.info, .modernization)),
    ("FURB", (.info, .modernization)), ("FA", (.info, .modernization)),
    ("SIM", (.info, .maintainability)), ("RET", (.info, .maintainability)),
    ("ERA", (.info, .maintainability)) ]

/-- Prefixes that come before their family. -/
def overrides : List (String × (Severity × Category)) :=
  [("E9", (.error, .bug)), ("F8", (.error, .bug)), ("C90", (.warning, .maintainability))]

def classify (code : String) : Severity × Category :=
  match overrides.find? fun p => p.1.toList.isPrefixOf code.toList with
  | some p => p.2
  | none =>
    let letters := String.ofList (code.toList.takeWhile fun c => 'A' ≤ c && c ≤ 'Z')
    (families.lookup letters).getD (.warning, .style)

/-- The code of a diagnostic that no rule stands behind. -/
def syntaxError : String := "syntax-error"

/-- How a rule is classed; only texts name one. -/
def classifyValue (code : Json) : Except Fault (Severity × Category) :=
  (code.textFor "startswith").map classify

/-- How a finding is classed: one without a rule is an error. -/
def classifyFinding (code : Json) : Except Fault (Severity × Category) :=
  if code.isText syntaxError then .ok (.error, .bug) else classifyValue code

def issueOf (disk : Disk) (root : Option Path) (v : Json) : Except Fault Issue := do
  let d ← v.fieldsFor "get"
  let location := d.valueOr "location" (.obj [])
  let filePath ← relativePath disk (d.valueOr "filename" (.str "")) root
  let place ← location.fieldsFor "get"
  let line ← (place.valueOr "row" (.int 0)).toInt
  let column ← (place.valueOr "column" (.int 0)).toInt
  let message := d.valueOr "message" (.str "Ruff finding")
  let code := d.valueOr "code" (.str syntaxError)
  let (severity, category) ← classifyFinding code
  let fix ← (d.valueOr "fix" (.obj [])).fieldsFor "get"
  let suggestion := fix.value "message"
  return {
    id := .str (issueId (.str "ruff") (.str filePath) (.int line) code message)
    message
    filePath := .str filePath
    line, column, severity, category
    ruleId := code
    toolName := .str "ruff"
    fixSuggestion := if suggestion.isBlank then none else some suggestion }

/-- The issues in the text of a report; an empty text is an empty report. -/
def issuesOf (disk : Disk) (root : Option Path) (text : String) : Except Fault (List Issue) := do
  match ← (Json.read (if text.isEmpty then "[]" else text)).mapError .json with
  | .arr items => items.mapM (issueOf disk root)
  | _ => throw .notDiagnostics

end LintHub.RuffReport
