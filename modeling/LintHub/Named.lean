/-! # Values by key

Values are kept in the order in which their keys first came: to set the value of a key in use leaves
it its place. Keys of one identity are one key, however they are written.
-/

namespace LintHub

/-- Sets the value of `k`. A key of the same identity keeps its place and the way it is written. -/
def setBy {κ ι α : Type} [DecidableEq ι] (identity : κ → ι) :
    List (κ × α) → κ → α → List (κ × α)
  | [], k, a => [(k, a)]
  | (k', b) :: rest, k, a =>
    if identity k' = identity k then (k', a) :: rest
    else (k', b) :: setBy identity rest k a

/-- Sets the value of `name`; a name in use keeps its place. -/
def setNamed {α : Type} (xs : List (String × α)) (name : String) (a : α) : List (String × α) :=
  setBy id xs name a

end LintHub
