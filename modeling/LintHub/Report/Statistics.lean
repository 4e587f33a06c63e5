import LintHub.Report.Aggregate

/-! # Statistics

Totals over analyses, and the files with the most issues. Repeats count here.
-/

namespace LintHub

open Time

/-- The first `limit` of a list; a negative limit leaves that many off the end, none keeps all. -/
def takeUpTo {α : Type} (limit : Option Int) (xs : List α) : List α :=
  match limit with
  | none => xs
  | some n => if 0 ≤ n then xs.take n.toNat else xs.take (xs.length - n.natAbs)

/-- A limit given as a value. -/
def limitOf : Json → Except Fault (Option Int)
  | .null => .ok none
  | .int n => .ok (some n)
  | .bool b => .ok (some (if b then 1 else 0))
  | v => .error (.misused .slice v.kind)

/-- The files that have issues, by falling number of issues. -/
def fileRanking (analyses : List Analysis) : Except Fault (List Scalar) := do
  let files ← (analyses.flatMap (·.issues)).mapM fun i => i.filePath.toScalar
  return (Tally.ofList Scalar.identity files).ranking

def worstFiles (analyses : List Analysis) (limit : Json) : Except Fault (List Json) := do
  let ranking ← fileRanking analyses
  return (takeUpTo (← limitOf limit) ranking).map Scalar.toJson

structure Statistics where
  totalIssues : Int
  totalFiles : Int
  totalTime : Span
  perTool : Tally Scalar
  bySeverity : Tally Severity
  byCategory : Tally Category
  worstFiles : List Json
  deriving Repr

/-- Adds one analysis to the running time and the issues of its tool. -/
def addRun (sums : Span × Tally Scalar) (a : Analysis) : Except Fault (Span × Tally Scalar) := do
  let time ← (sums.1.add a.executionTime).mapError .span
  let tool ← a.toolName.toScalar
  return (time, Tally.add Scalar.identity sums.2 tool a.issues.length)

def statistics (analyses : List Analysis) (limit : Json) : Except Fault Statistics := do
  let (totalTime, perTool) ← analyses.foldlM addRun (Span.zero, [])
  let issues := analyses.flatMap (·.issues)
  return {
    totalIssues := issues.length
    totalFiles := analyses.foldr (fun a count => a.filesAnalyzed + count) 0
    totalTime, perTool
    bySeverity := Tally.ofList id (issues.map (·.severity))
    byCategory := Tally.ofList id (issues.map (·.category))
    worstFiles := ← LintHub.worstFiles analyses limit }

def Statistics.toJson (s : Statistics) : Json :=
  .obj
    [ ("total_issues", .int s.totalIssues), ("total_files_analyzed", .int s.totalFiles),
      ("total_execution_time_ms", .int s.totalTime.millis),
      ("issues_per_tool", Analysis.tallyJson Scalar.fieldName s.perTool),
      ("issues_by_severity", Analysis.tallyJson Severity.label s.bySeverity),
      ("issues_by_category", Analysis.tallyJson Category.label s.byCategory),
      ("most_problematic_files", .arr s.worstFiles) ]

end LintHub
