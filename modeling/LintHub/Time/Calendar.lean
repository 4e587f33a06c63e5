/-! # The calendar

Dates of the Gregorian calendar extended to all years, counted from the first day of year 1, which
is day 1.
-/

namespace LintHub.Time

def isLeap (year : Int) : Bool :=
  year % 4 == 0 && (year % 100 != 0 || year % 400 == 0)

def daysInMonth (year : Int) (month : Nat) : Nat :=
  match month with
  | 2 => if isLeap year then 29 else 28
  | 4 | 6 | 9 | 11 => 30
  | _ => 31

/-- Days before the first of `month` in `year`. -/
def daysBeforeMonth (year : Int) (month : Nat) : Nat :=
  (List.range (month - 1)).foldr (fun m days => daysInMonth year (m + 1) + days) 0

/-- Days before the first day of `year`. -/
def daysBeforeYear (year : Int) : Int :=
  let y := year - 1
  y * 365 + y / 4 - y / 100 + y / 400

structure Date where
  year : Int
  month : Nat
  day : Nat
  deriving DecidableEq, Repr

def Date.dayNumber (d : Date) : Int :=
  daysBeforeYear d.year + daysBeforeMonth d.year d.month + d.day

/-- The month in which day `n` of a year falls, counted from zero, and the day in it. -/
def monthOfDay (year : Int) (n month : Nat) : (fuel : Nat) → Nat × Nat
  | 0 => (month, n)
  | fuel + 1 =>
    if n < daysInMonth year month then (month, n)
    else monthOfDay year (n - daysInMonth year month) (month + 1) fuel

/-- The date with a day number. -/
def Date.ofDayNumber (n : Int) : Date :=
  let guess := (n - 1) * 400 / 146097 + 1
  let year :=
    if n ≤ daysBeforeYear guess then guess - 1
    else if daysBeforeYear (guess + 1) < n then guess + 1
    else guess
  let (month, day) := monthOfDay year (n - daysBeforeYear year - 1).toNat 1 12
  ⟨year, month, day + 1⟩

/-- Days from Monday. -/
def Date.weekday (d : Date) : Int :=
  (d.dayNumber + 6) % 7

/-- The day number of the Monday of a year's first week, the one that holds its first Thursday. -/
def firstMonday (year : Int) : Int :=
  let first := daysBeforeYear year + 1
  let weekday := (first + 6) % 7
  let monday := first - weekday
  if weekday > 3 then monday + 7 else monday

/-- Whether a year has a week 53. -/
def hasLongYear (year : Int) : Bool :=
  let weekday := (Date.mk year 1 1).weekday
  weekday == 3 || (weekday == 2 && isLeap year)

end LintHub.Time
