/-! # Tallies

How often each key occurs, in the order in which the keys first came.
-/

namespace LintHub

/-- Keys with their counts. -/
abbrev Tally (κ : Type) := List (κ × Int)

namespace Tally

variable {κ : Type} {ι : Type} [DecidableEq ι]

/-- Adds `n` to the count of the keys that say the same as `k`; the first of them stays. -/
def add (view : κ → ι) : Tally κ → κ → Int → Tally κ
  | [], k, n => [(k, n)]
  | (k', m) :: rest, k, n =>
    if view k' = view k then (k', m + n) :: rest else (k', m) :: add view rest k n

/-- Counts each key of a list. -/
def ofList (view : κ → ι) (ks : List κ) : Tally κ :=
  ks.foldl (fun t k => add view t k 1) []

/-- The count of a key; zero if it never came. -/
def count (view : κ → ι) (t : Tally κ) (i : ι) : Int :=
  ((t.find? fun p => view p.1 = i).map (·.2)).getD 0

def total (t : Tally κ) : Int :=
  t.foldr (fun p count => p.2 + count) 0

/-- The keys by falling count, equal counts in the order in which they first came. -/
def ranking (t : Tally κ) : List κ :=
  (t.mergeSort fun a b => decide (b.2 ≤ a.2)).map (·.1)

end Tally

end LintHub
