/-! # Double-precision numbers

A number is held exactly: a finite one is `± mantissa * 2 ^ exponent` in the one form that fits the
format, so equal values have equal forms and every operation is integer arithmetic.
-/

namespace LintHub

/-- `mantissa * 2 ^ exponent` is in the format: as large a mantissa as fits, unless the exponent is
the least one. -/
def IsBinary64 (mantissa : Nat) (exponent : Int) : Prop :=
  mantissa < Nat.pow 2 53 ∧ -1074 ≤ exponent ∧ exponent ≤ 971 ∧
    (Nat.pow 2 52 ≤ mantissa ∨ exponent = -1074)

instance (m : Nat) (e : Int) : Decidable (IsBinary64 m e) := by
  unfold IsBinary64; infer_instance

inductive Binary64 where
  | finite (negative : Bool) (mantissa : Nat) (exponent : Int)
      (fits : IsBinary64 mantissa exponent)
  | infinite (negative : Bool)
  | notANumber
  deriving DecidableEq, Repr

/-- `numerator / denominator` rounded to an integer, a half to the even neighbour. -/
def roundHalfEven (numerator denominator : Nat) : Nat :=
  let q := numerator / denominator
  let r := numerator % denominator
  if 2 * r < denominator then q
  else if denominator < 2 * r then q + 1
  else if q % 2 = 0 then q else q + 1

/-- The exponent of the highest power of two not above `numerator / denominator`. -/
def floorLog2 (numerator denominator : Nat) : Int :=
  let guess := (numerator.log2 : Int) - denominator.log2
  let reached :=
    if 0 ≤ guess then decide (denominator * Nat.pow 2 guess.toNat ≤ numerator)
    else decide (denominator ≤ numerator * Nat.pow 2 (-guess).toNat)
  if reached then guess else guess - 1

/-- `n * 2 ^ e` as a fraction. -/
def scaleTwo (n : Nat) (e : Int) : Nat × Nat :=
  if 0 ≤ e then (n * Nat.pow 2 e.toNat, 1) else (n, Nat.pow 2 (-e).toNat)

namespace Binary64

theorem zero_fits : IsBinary64 0 (-1074) := by decide

def zero : Binary64 := finite false 0 (-1074) zero_fits

/-- The number with this mantissa and exponent; one that is too large is infinite. -/
def ofParts (negative : Bool) (mantissa : Nat) (exponent : Int) : Binary64 :=
  if h : IsBinary64 mantissa exponent then finite negative mantissa exponent h
  else infinite negative

/-- The number nearest to `± numerator / denominator`; of two equally near ones the even one. -/
def ofRatio (negative : Bool) (numerator denominator : Nat) : Binary64 :=
  if numerator = 0 then finite negative 0 (-1074) zero_fits
  else
    let e := max (-1074) (floorLog2 numerator denominator - 52)
    let m :=
      if 0 ≤ e then roundHalfEven numerator (denominator * Nat.pow 2 e.toNat)
      else roundHalfEven (numerator * Nat.pow 2 (-e).toNat) denominator
    if m = Nat.pow 2 53 then ofParts negative (Nat.pow 2 52) (e + 1) else ofParts negative m e

/-- The number nearest to `± digits * 10 ^ power`. Powers beyond every number's reach are settled
without computing them. -/
def ofDecimal (negative : Bool) (digits : Nat) (power : Int) : Binary64 :=
  if digits = 0 then finite negative 0 (-1074) zero_fits
  else
    let size := (Nat.toDigits 10 digits).length
    if 400 < size + power then infinite negative
    else if size + power < -400 then finite negative 0 (-1074) zero_fits
    else if 0 ≤ power then ofRatio negative (digits * Nat.pow 10 power.toNat) 1
    else ofRatio negative digits (Nat.pow 10 (-power).toNat)

def ofInt (i : Int) : Binary64 :=
  ofRatio (i < 0) i.natAbs 1

/-- The value as a signed fraction; none unless it is finite. -/
def toRatio? : Binary64 → Option (Int × Nat)
  | finite negative m e _ =>
    let (n, d) := scaleTwo m e
    some (if negative then -n else n, d)
  | _ => none

/-- The nearest number to a signed fraction. -/
def ofSignedRatio (numerator : Int) (denominator : Nat) : Binary64 :=
  ofRatio (numerator < 0) numerator.natAbs denominator

/-- The whole part; none unless the value is finite. -/
def truncate? (x : Binary64) : Option Int :=
  x.toRatio?.map fun (n, d) => Int.tdiv n d

/-- The value as an integer, if it is one. -/
def toInt? (x : Binary64) : Option Int :=
  match x.toRatio? with
  | some (n, d) => if n % d = 0 then some (n / d) else none
  | none => none

def isZero : Binary64 → Bool
  | finite _ m _ _ => m == 0
  | _ => false

def isNegative : Binary64 → Bool
  | finite negative _ _ _ => negative
  | infinite negative => negative
  | notANumber => false

/-- Addition, rounded once. Two zeros keep a minus sign only if both have one. -/
def add (x y : Binary64) : Binary64 :=
  match x.toRatio?, y.toRatio? with
  | some (a, b), some (c, d) =>
    let n := a * d + c * b
    if n = 0 then
      finite (x.isZero && y.isZero && x.isNegative && y.isNegative) 0 (-1074) zero_fits
    else ofSignedRatio n (b * d)
  | _, _ =>
    match x, y with
    | notANumber, _ => notANumber
    | _, notANumber => notANumber
    | infinite a, infinite b => if a == b then infinite a else notANumber
    | infinite a, _ => infinite a
    | _, y => y

def neg : Binary64 → Binary64
  | finite negative m e h => finite (!negative) m e h
  | infinite negative => infinite (!negative)
  | notANumber => notANumber

def sub (x y : Binary64) : Binary64 :=
  x.add y.neg

/-- Whether `x` is below `y`; a value that is not a number is below nothing. -/
def lt (x y : Binary64) : Bool :=
  match x.toRatio?, y.toRatio? with
  | some (a, b), some (c, d) => decide (a * d < c * b)
  | _, _ =>
    match x, y with
    | notANumber, _ => false
    | _, notANumber => false
    | infinite a, infinite b => a && !b
    | infinite a, _ => a
    | _, infinite b => !b
    | _, _ => false

end Binary64

end LintHub
