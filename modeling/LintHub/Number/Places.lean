import LintHub.Number.Shortest

/-! # Decimals with a given number of places

The exact value of a number is rounded once, a half to the even neighbour, and laid out positionally,
with an exponent, or in whichever of the two is more compact.
-/

namespace LintHub

namespace Places

/-- `digits` with the last `places` of them after a point. -/
def pointed (keepPoint : Bool) (digits places : Nat) : String :=
  let cs := (Text.paddedNat (places + 1) digits).toList
  let whole := String.ofList (cs.take (cs.length - places))
  let part := String.ofList (cs.drop (cs.length - places))
  whole ++ (if places = 0 && !keepPoint then "" else ".") ++ part

/-- `numerator / denominator` to a number of places. -/
def fixed (keepPoint : Bool) (places numerator denominator : Nat) : String :=
  pointed keepPoint (roundHalfEven (numerator * Nat.pow 10 places) denominator) places

/-- The digits of `numerator / denominator` to `places + 1` significant ones, and the power of ten of
the first of them. -/
def significant (places numerator denominator : Nat) : Nat × Int :=
  if numerator = 0 then (0, 0)
  else
    let lead := Decimal.leadingPower numerator denominator
    let power := lead - places
    let digits :=
      if 0 ≤ power then roundHalfEven numerator (denominator * Nat.pow 10 power.toNat)
      else roundHalfEven (numerator * Nat.pow 10 (-power).toNat) denominator
    if digits = Nat.pow 10 (places + 1) then (Nat.pow 10 places, lead + 1) else (digits, lead)

def exponentText (power : Int) : String :=
  "e" ++ (if power < 0 then "-" else "+") ++ Text.paddedNat 2 power.natAbs

/-- One digit before the point and `places` after it, with an exponent. -/
def scientific (keepPoint : Bool) (places numerator denominator : Nat) : String :=
  let (digits, power) := significant places numerator denominator
  pointed keepPoint digits places ++ exponentText power

/-- Drops the zeros at the end of a decimal, and the point if nothing follows it. -/
def dropZeros (s : String) : String :=
  if s.toList.contains '.' then
    let cs := (s.toList.reverse.dropWhile (· == '0'))
    String.ofList (if cs.head? == some '.' then cs.drop 1 else cs).reverse
  else s

/-- `count` significant digits: positional if the first of them stands no lower than the fourth place
and no higher than `count` digits before the point. -/
def compact (keepZeros : Bool) (count numerator denominator : Nat) : String :=
  let count := max count 1
  let (digits, power) := significant (count - 1) numerator denominator
  let trimmed (s : String) : String := if keepZeros then s else dropZeros s
  if -4 ≤ power ∧ power < count then
    let places := (count - 1 - power).toNat
    trimmed (fixed keepZeros places numerator denominator)
  else trimmed (pointed keepZeros digits (count - 1)) ++ exponentText power

end Places

end LintHub
