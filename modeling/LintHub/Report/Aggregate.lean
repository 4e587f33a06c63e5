import LintHub.Report.Dedup

/-! # Merging analyses

One analysis for many: all issues without repeats, and the sums of files and times. It succeeds if
all of them did.
-/

namespace LintHub

open Time

def aggregatedName : String := "aggregated"

/-- Adds up spans from `start` on. -/
def sumSpans (start : Span) (spans : List Span) : Except Fault Span :=
  spans.foldlM (fun s t => (s.add t).mapError .span) start

/-- What failed, and why, for each failed analysis. -/
def failureTexts (analyses : List Analysis) : List String :=
  (analyses.filter fun a => !a.success).map fun a =>
    a.toolName.display ++ ": " ++ a.errorMessage.display

def aggregate (stamp : Stamp) (analyses : List Analysis) : Except Fault Analysis := do
  let executionTime ← sumSpans Span.zero (analyses.map (·.executionTime))
  let errors := failureTexts analyses
  let issues ← distinctIssues (analyses.flatMap (·.issues))
  return {
    Analysis.new stamp (.str aggregatedName) with
    issues, executionTime
    filesAnalyzed := analyses.foldr (fun a count => a.filesAnalyzed + count) 0
    success := errors.isEmpty
    errorMessage := .str (String.intercalate "; " errors) }

end LintHub
