import LintHub.Time.Calendar
import LintHub.Time.Span

/-! # Moments

A date, a time of day and a distance from UTC. The text form is in UTC to the second; the full form
shows microseconds and the distance from UTC where there are any.
-/

namespace LintHub.Time

/-- What is wrong with the parts of a moment. -/
inductive MomentError where
  | year (year : Int)
  | month
  | day
  | hour
  | minute
  | second
  | micro
  | offset (micros : Int)
  | outOfRange
  | malformed (text : String)
  deriving DecidableEq, Repr

structure Moment where
  date : Date
  hour : Nat
  minute : Nat
  second : Nat
  micro : Nat
  /-- Microseconds ahead of UTC. -/
  offset : Int
  deriving DecidableEq, Repr

namespace Moment

/-- Checks the parts in the order year, month, day, hour, minute, second, microsecond. -/
def check (m : Moment) : Except MomentError Moment :=
  if m.date.year < 1 || 9999 < m.date.year then .error (.year m.date.year)
  else if m.date.month < 1 || 12 < m.date.month then .error .month
  else if m.date.day < 1 || daysInMonth m.date.year m.date.month < m.date.day then .error .day
  else if 23 < m.hour then .error .hour
  else if 59 < m.minute then .error .minute
  else if 59 < m.second then .error .second
  else if 999999 < m.micro then .error .micro
  else .ok m

/-- A moment from its parts, the last of which may be left out. A part below zero lies outside of
every range. -/
def ofParts (parts : List Int) (offset : Int) : Except MomentError Moment :=
  let part (i : Nat) : Nat :=
    let n := parts.getD i 0
    if n < 0 then 1000000 else n.toNat
  if microsPerDay ≤ offset.natAbs then .error (.offset offset)
  else check ⟨⟨parts.getD 0 0, part 1, part 2⟩, part 3, part 4, part 5, part 6, offset⟩

/-- Microseconds from the start of day 0 in the moment's own clock. -/
def localMicros (m : Moment) : Int :=
  m.date.dayNumber * microsPerDay +
    (((m.hour * 60 + m.minute) * 60 + m.second) * 1000000 + m.micro : Nat)

/-- The moment in UTC that lies a number of microseconds after the start of day 0. -/
def ofUtcMicros (micros : Int) : Except MomentError Moment :=
  let day := micros / microsPerDay
  let rest := (micros % microsPerDay).toNat
  let date := Date.ofDayNumber day
  if date.year < 1 || 9999 < date.year then .error .outOfRange
  else
    .ok ⟨date, rest / 3600000000, rest / 60000000 % 60, rest / 1000000 % 60, rest % 1000000, 0⟩

def utcMicros (m : Moment) : Int :=
  m.localMicros - m.offset

/-- The same moment in UTC; none where that leaves the years 1 to 9999. -/
def toUtc (m : Moment) : Except MomentError Moment :=
  if m.offset = 0 then .ok m else ofUtcMicros m.utcMicros

def timeText (m : Moment) : String :=
  s!"{Text.paddedNat 2 m.hour}:{Text.paddedNat 2 m.minute}:{Text.paddedNat 2 m.second}"

def monthDayText (m : Moment) : String :=
  s!"{Text.paddedNat 2 m.date.month}-{Text.paddedNat 2 m.date.day}"

/-- The text form of a moment that is already in UTC. The year has no zeros in front. -/
def utcText (m : Moment) : String :=
  s!"{Text.intText m.date.year}-{m.monthDayText}T{m.timeText}Z"

def text (m : Moment) : Except MomentError String :=
  m.toUtc.map utcText

/-- A distance from UTC: seconds and microseconds only where there are any. -/
def offsetText (micros : Int) : String :=
  let n := micros.natAbs
  let sign := if micros < 0 then "-" else "+"
  let base := s!"{sign}{Text.paddedNat 2 (n / 3600000000)}:{Text.paddedNat 2 (n / 60000000 % 60)}"
  let rest := n % 60000000
  if rest = 0 then base
  else
    let seconds := base ++ ":" ++ Text.paddedNat 2 (rest / 1000000)
    if rest % 1000000 = 0 then seconds
    else seconds ++ "." ++ Text.paddedNat 6 (rest % 1000000)

/-- The full form. -/
def isoText (m : Moment) : String :=
  let base := s!"{Text.paddedNat 4 m.date.year.toNat}-{m.monthDayText}T{m.timeText}"
  let fraction := if m.micro = 0 then "" else "." ++ Text.paddedNat 6 m.micro
  base ++ fraction ++ offsetText m.offset

end Moment

end LintHub.Time
