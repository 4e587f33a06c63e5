import LintHub.Report.Aggregate

/-! # Comparing two runs

Each side is merged first. Issues of the later side are new or persistent, those of the earlier side
that are gone are resolved.
-/

namespace LintHub

structure Comparison where
  new : List Issue
  resolved : List Issue
  persistent : List Issue
  severityDeltas : Tally Severity
  countDelta : Int
  deriving Repr

/-- The issues whose keys `other` does not have. -/
def without (entries other : Keyed) : List Issue :=
  (entries.filter fun e => !(other.map (·.1)).contains e.1).map (·.2)

/-- The issues whose keys `other` has. -/
def shared (entries other : Keyed) : List Issue :=
  (entries.filter fun e => (other.map (·.1)).contains e.1).map (·.2)

def severityCount (entries : Keyed) (s : Severity) : Int :=
  Tally.count id (Tally.ofList id (entries.map (·.2.severity))) s

/-- The comparison of two sides without repeats. -/
def Comparison.ofKeyed (before after : Keyed) : Comparison :=
  { new := without after before
    resolved := without before after
    persistent := shared after before
    severityDeltas :=
      Severity.all.map fun s => (s, severityCount after s - severityCount before s)
    countDelta := (after.length : Int) - before.length }

def compare (stamp : Stamp) (baseline current : List Analysis) : Except Fault Comparison := do
  let before ← aggregate stamp baseline
  let after ← aggregate stamp current
  return Comparison.ofKeyed (← withKeys before.issues) (← withKeys after.issues)

def Comparison.toJson (c : Comparison) : Json :=
  .obj
    [ ("new_issues", .arr (c.new.map Issue.toJson)),
      ("resolved_issues", .arr (c.resolved.map Issue.toJson)),
      ("persistent_issues", .arr (c.persistent.map Issue.toJson)),
      ("severity_deltas", Analysis.tallyJson Severity.label c.severityDeltas),
      ("issue_count_delta", .int c.countDelta) ]

end LintHub
