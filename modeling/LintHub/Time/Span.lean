import LintHub.Number.Binary64
import LintHub.Text.Digit

/-! # Spans of time

A span is a whole number of microseconds, of less than `10 ^ 9` days either way.
-/

namespace LintHub.Time

def microsPerDay : Int := 86400000000

def maxDays : Int := 999999999

/-- Two to the power of 31. -/
def halfWordBound : Int := 2147483648

/-- Why a number of microseconds is no span: the days do not fit, or not even a machine word. -/
inductive SpanError where
  | days (days : Int)
  | word
  deriving DecidableEq, Repr

def SpanError.message : SpanError → String
  | days n => s!"days={Text.intText n}; must have magnitude <= 999999999"
  | word => "Python int too large to convert to C int"

structure Span where
  micros : Int
  bounded : -maxDays ≤ micros / microsPerDay ∧ micros / microsPerDay ≤ maxDays
  deriving DecidableEq, Repr

namespace Span

def zero : Span := ⟨0, by decide⟩

def ofMicros (micros : Int) : Except SpanError Span :=
  if h : -maxDays ≤ micros / microsPerDay ∧ micros / microsPerDay ≤ maxDays then .ok ⟨micros, h⟩
  else if -halfWordBound ≤ micros / microsPerDay ∧ micros / microsPerDay < halfWordBound then
    .error (.days (micros / microsPerDay))
  else .error .word

def ofMillis (millis : Int) : Except SpanError Span :=
  ofMicros (millis * 1000)

def add (a b : Span) : Except SpanError Span :=
  ofMicros (a.micros + b.micros)

/-- The whole milliseconds of the span as a floating-point number of them. -/
def millis (s : Span) : Int :=
  ((Binary64.ofSignedRatio s.micros 1000).truncate?).getD 0

theorem micros_ofMicros {micros : Int} {s : Span} (h : ofMicros micros = .ok s) :
    s.micros = micros := by
  unfold ofMicros at h
  split at h
  · cases h; rfl
  · split at h <;> cases h

end Span

/-- The integer nearest to `numerator / denominator` when whole units `base` come with it: a half
goes to the side that makes the sum even. -/
def roundWith (base numerator : Int) (denominator : Nat) : Int :=
  let doubled := 2 * (base * denominator + numerator)
  let q := doubled / (2 * denominator : Nat)
  let r := doubled % (2 * denominator : Nat)
  if r < denominator then q
  else if (denominator : Int) < r then q + 1
  else if q % 2 = 0 then q else q + 1

/-- The span of a number of seconds: the whole seconds exactly, the rest as a floating-point number
of microseconds rounded to an integer. None unless the number is finite. -/
def Span.ofSeconds? (x : Binary64) : Option (Except SpanError Span) :=
  match x.toRatio? with
  | none => none
  | some (n, d) =>
    let whole := Int.tdiv n d
    let rest := Binary64.ofSignedRatio ((n - whole * d) * 1000000) d
    match rest.toRatio? with
    | none => none
    | some (n, d) => some (Span.ofMicros (roundWith (whole * 1000000) n d))

end LintHub.Time
