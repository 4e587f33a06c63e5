import LintHub.Fault

/-! # Progress of a run -/

namespace LintHub

structure Progress where
  total : Int
  processed : Int
  currentFile : String
  status : String
  deriving DecidableEq, Repr

namespace Progress

/-- The quotient of two integers as the nearest floating-point number, unless it is too large. -/
def quotient (numerator : Int) (denominator : Nat) : Except Fault Binary64 :=
  match Binary64.ofSignedRatio numerator denominator with
  | .infinite _ => .error .divisionTooLarge
  | x => .ok x

/-- The part of the files that is done: at most one, and zero when there are no files. -/
def ratio (p : Progress) : Except Fault Binary64 :=
  if p.total ≤ 0 then .ok Binary64.zero
  else
    (quotient p.processed p.total.toNat).map fun x =>
      if x.lt (Binary64.ofInt 1) then x else Binary64.ofInt 1

end Progress

end LintHub
