import LintHub.Analysis

/-! # Dropping repeats

Issues with the same key are the same issue; the first one seen stays.
-/

namespace LintHub

/-- Keeps the first of the entries with each key, leaving out the keys in `seen`. -/
def firstByKey {κ α : Type} [DecidableEq κ] (seen : List κ) : List (κ × α) → List (κ × α)
  | [] => []
  | (k, a) :: rest =>
    if k ∈ seen then firstByKey seen rest else (k, a) :: firstByKey (k :: seen) rest

/-- Issues with their keys. -/
abbrev Keyed := List (IssueKey × Issue)

/-- Gives each issue its key; a key that cannot be compared is a fault. -/
def withKeys (issues : List Issue) : Except Fault Keyed :=
  issues.mapM fun i => i.key.map (·, i)

/-- The issues without repeats, with their keys. -/
def distinctKeyed (issues : List Issue) : Except Fault Keyed :=
  (withKeys issues).map (firstByKey [])

def distinctIssues (issues : List Issue) : Except Fault (List Issue) :=
  (distinctKeyed issues).map (·.map (·.2))

end LintHub
