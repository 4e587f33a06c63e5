import LintHub.Number.Binary64
import LintHub.Text.Digit

/-! # Shortest decimal text

A number is written with the fewest decimal digits that read back as the same number, and of those
with the ones nearest to it. Where no grid of up to 17 digits holds such a decimal the exact
expansion is used, so what is written always reads back.
-/

namespace LintHub

/-- `digits * 10 ^ power`. -/
structure Decimal where
  digits : Nat
  power : Int
  deriving DecidableEq, Repr

namespace Decimal

/-- Drops zeros at the end of the digits. -/
def trim (digits : Nat) (power : Int) (fuel : Nat) : Decimal :=
  match fuel with
  | 0 => ⟨digits, power⟩
  | fuel + 1 =>
    if digits ≠ 0 ∧ digits % 10 = 0 then trim (digits / 10) (power + 1) fuel else ⟨digits, power⟩

/-- The number of digits of `n`. -/
def size (n : Nat) : Nat :=
  (Nat.toDigits 10 n).length

/-- The power of ten of the first digit of `numerator / denominator`. -/
def leadingPower (numerator denominator : Nat) : Int :=
  let guess : Int := (size numerator : Int) - size denominator
  let reached :=
    if 0 ≤ guess then decide (denominator * Nat.pow 10 guess.toNat ≤ numerator)
    else decide (denominator ≤ numerator * Nat.pow 10 (-guess).toNat)
  if reached then guess else guess - 1

/-- The neighbours of `numerator / denominator` among the multiples of `10 ^ power`, the nearer one
first; of two equally near ones the even one. -/
def neighbours (numerator denominator : Nat) (power : Int) : List Nat :=
  let (n, d) :=
    if 0 ≤ power then (numerator, denominator * Nat.pow 10 power.toNat)
    else (numerator * Nat.pow 10 (-power).toNat, denominator)
  let q := n / d
  if roundHalfEven n d = q then [q, q + 1] else [q + 1, q]

/-- The decimal with at most `count` more digits than tried so far that `reads` accepts. -/
def search (reads : Nat → Int → Bool) (numerator denominator : Nat) (lead : Int) :
    (tried count : Nat) → Option Decimal
  | _, 0 => none
  | tried, count + 1 =>
    let power := lead - tried
    match (neighbours numerator denominator power).find? (reads · power) with
    | some digits => some ⟨digits, power⟩
    | none => search reads numerator denominator lead (tried + 1) count

end Decimal

/-- The shortest decimal that reads back as `m * 2 ^ e`, for `m` above zero. -/
def shortestDecimal (m : Nat) (e : Int) : Decimal :=
  let (n, d) := scaleTwo m e
  let target := Binary64.ofParts false m e
  let found :=
    Decimal.search (fun digits power => Binary64.ofDecimal false digits power == target) n d
      (Decimal.leadingPower n d) 0 17
  let chosen := found.getD (if 0 ≤ e then ⟨n, 0⟩ else ⟨m * Nat.pow 5 (-e).toNat, e⟩)
  Decimal.trim chosen.digits chosen.power (Decimal.size chosen.digits)

/-- How decimals are laid out: positional up to `10 ^ 16` and down to `10 ^ -4`, with at least one
digit after the point; else one digit, a point and an exponent of at least two digits. -/
def Decimal.text (x : Decimal) : String :=
  let ds := Text.natText x.digits
  let count : Int := ds.length
  let point := count + x.power
  if -4 < point ∧ point ≤ 16 then
    if point ≤ 0 then
      "0." ++ String.ofList (List.replicate (-point).toNat '0') ++ ds
    else if count ≤ point then
      ds ++ String.ofList (List.replicate (point - count).toNat '0') ++ ".0"
    else
      String.ofList (ds.toList.take point.toNat) ++ "." ++
        String.ofList (ds.toList.drop point.toNat)
  else
    let exponent := point - 1
    let tail := ds.toList.drop 1
    let mantissa :=
      String.ofList (ds.toList.take 1) ++ (if tail.isEmpty then "" else "." ++ String.ofList tail)
    mantissa ++ "e" ++ (if exponent < 0 then "-" else "+") ++
      Text.paddedNat 2 exponent.natAbs

namespace Binary64

/-- The magnitude of a finite number, in its shortest form. -/
def magnitudeText (m : Nat) (e : Int) : String :=
  if m = 0 then "0.0" else (shortestDecimal m e).text

def text : Binary64 → String
  | finite negative m e _ => (if negative then "-" else "") ++ magnitudeText m e
  | infinite negative => if negative then "-inf" else "inf"
  | notANumber => "nan"

end Binary64

end LintHub
