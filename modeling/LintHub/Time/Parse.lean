import LintHub.Time.Moment
import LintHub.Text.Quoted

/-! # Reading moments

Two grammars. The plain form is the text form with one or two digits in each part but the year, in
digits of any script. The ISO form knows basic and extended dates, week dates, fractions of a
second and distances from UTC, and any one character between date and time.
-/

namespace LintHub.Time

/-! ## The plain form -/

/-- One character of a form. -/
inductive Mark where
  | between (low high : Char)
  | digit
  | blank

def Mark.accepts (m : Mark) (c : Char) : Bool :=
  match m with
  | between low high => low ≤ c && c ≤ high
  | digit => Text.isDigit c
  | blank => c == ' '

/-- Whether each character is accepted by the mark in its place. -/
def fits : List Mark → List Char → Bool
  | [], [] => true
  | m :: ms, c :: cs => m.accepts c && fits ms cs
  | _, _ => false

/-- The number that the digits of a text write, if one of the forms fits it. -/
def part? (forms : List (List Mark)) (cs : List Char) : Option Nat :=
  if forms.any (fits · cs) then some (Text.natOfDigits (cs.filterMap Text.digitValue?)) else none

def yearForms : List (List Mark) := [[.digit, .digit, .digit, .digit]]

def monthForms : List (List Mark) :=
  [[.between '1' '1', .between '0' '2'], [.between '0' '0', .between '1' '9'], [.between '1' '9']]

/-- A day may have a blank in place of its leading zero. -/
def dayForms : List (List Mark) :=
  [ [.between '3' '3', .between '0' '1'], [.between '1' '2', .digit],
    [.between '0' '0', .between '1' '9'], [.between '1' '9'], [.blank, .between '1' '9'] ]

def hourForms : List (List Mark) :=
  [[.between '2' '2', .between '0' '3'], [.between '0' '1', .digit], [.digit]]

def minuteForms : List (List Mark) := [[.between '0' '5', .digit], [.digit]]

def secondForms : List (List Mark) :=
  [[.between '6' '6', .between '0' '1'], [.between '0' '5', .digit], [.digit]]

/-- Splits at the first character in `seps`, which is dropped. -/
def cutAt (seps : List Char) (cs : List Char) : Option (List Char × List Char) :=
  let head := cs.takeWhile fun c => !seps.contains c
  match cs.drop head.length with
  | [] => none
  | _ :: rest => some (head, rest)

/-- The parts of a text in the plain form. -/
def plainParts? (cs : List Char) : Option Moment := do
  let (year, cs) ← cutAt ['-'] cs
  let (month, cs) ← cutAt ['-'] cs
  let (day, cs) ← cutAt ['T', 't'] cs
  let (hour, cs) ← cutAt [':'] cs
  let (minute, cs) ← cutAt [':'] cs
  let (second, cs) ← cutAt ['Z', 'z'] cs
  if cs.isEmpty then
    let date := ⟨← part? yearForms year, ← part? monthForms month, ← part? dayForms day⟩
    some ⟨date, ← part? hourForms hour, ← part? minuteForms minute, ← part? secondForms second, 0, 0⟩
  else none

/-- A text in the plain form that is a moment. -/
def plain? (s : String) : Option Moment :=
  (plainParts? s.toList).bind fun m => m.check.toOption

/-! ## The ISO form

It is read from the bytes of the text; beyond the end every byte is zero. -/

/-- Bytes with an end from which on they are zero. -/
structure Tape where
  bytes : Array UInt8

namespace Tape

def byte (t : Tape) (i : Nat) : Nat :=
  (t.bytes.getD i 0).toNat

def isDigit (t : Tape) (i : Nat) : Bool :=
  48 ≤ t.byte i && t.byte i ≤ 57

def isChar (t : Tape) (i : Nat) (c : Char) : Bool :=
  t.byte i == c.toNat

def size (t : Tape) : Nat := t.bytes.size

/-- The number that the `count` digits at `i` write. -/
def number? (t : Tape) (i count : Nat) : Option Nat :=
  if (List.range count).all fun k => t.isDigit (i + k) then
    some (Text.natOfDigits ((List.range count).map fun k => t.byte (i + k) - 48))
  else none

/-- The first place from `i` on, below `limit`, whose byte `p` accepts; else `limit`. -/
def find (t : Tape) (p : Nat → Bool) (i limit : Nat) : Nat :=
  ((List.range (limit - i)).find? fun k => p (t.byte (i + k))).elim limit (i + ·)

end Tape

/-- Where the date ends: told by the fifth and sixth byte, and for week dates by what follows. -/
def dateEnd? (t : Tape) : Option Nat :=
  if t.size == 7 then some 7
  else if t.isChar 4 '-' then
    if t.isChar 5 'W' then
      if t.size < 8 then none
      else if 8 < t.size && t.isChar 8 '-' then
        if t.size == 9 then none
        else if 10 < t.size && t.isDigit 10 then some 8
        else some 10
      else some 8
    else some 10
  else if t.isChar 4 'W' then
    let stop := t.find (fun b => !(48 ≤ b && b ≤ 57)) 7 t.size
    if stop < 9 then some stop
    else if stop % 2 == 0 then some 7
    else some 8
  else some 8

/-- The date of a day of a week, both counted from one. The weeks of year 0 lie before the first
month, so their date has none. -/
def weekDate? (year week day : Nat) : Option Date :=
  if week < 1 || 53 < week || (week == 53 && !hasLongYear year) then none
  else if day < 1 || 7 < day then none
  else if year < 1 then some ⟨1, 0, day⟩
  else some (Date.ofDayNumber (firstMonday year + ((week - 1) * 7 + (day - 1) : Nat)))

/-- The date at the start of the tape, which ends at `stop`. -/
def isoDate? (t : Tape) (stop : Nat) : Option Date := do
  let year ← t.number? 0 4
  let separated := t.isChar 4 '-'
  let i := if separated then 5 else 4
  if t.isChar i 'W' then
    let week ← t.number? (i + 1) 2
    if i + 3 < stop then
      if separated then
        if t.isChar (i + 3) '-' then weekDate? year week (← t.number? (i + 4) 1) else none
      else weekDate? year week (← t.number? (i + 3) 1)
    else weekDate? year week 1
  else
    let month ← t.number? i 2
    if separated then
      if t.isChar (i + 2) '-' then some ⟨year, month, ← t.number? (i + 3) 2⟩ else none
    else some ⟨year, month, ← t.number? (i + 2) 2⟩

/-- A time of day or a distance from UTC. -/
structure ClockParts where
  hour : Nat
  minute : Nat
  second : Nat
  micro : Nat
  /-- Whether something stood after the last part. -/
  leftover : Bool

/-- The fraction of a second that starts at `i`. -/
def isoFraction? (t : Tape) (i stop : Nat) (parts : List Nat) : Option ClockParts := do
  let count := min 6 (stop - i)
  let n ← t.number? i count
  let after := t.find (fun b => !(48 ≤ b && b ≤ 57)) (i + count) t.size
  some ⟨parts.getD 0 0, parts.getD 1 0, parts.getD 2 0, n * Nat.pow 10 (6 - count),
    t.byte after != 0⟩

/-- The parts from `i` on; `done` are the ones before. `separated` tells whether colons stand between
the parts, which the first byte after the hour decides. -/
def isoClock? (t : Tape) (stop i : Nat) (separated : Bool) (done : List Nat) :
    (fuel : Nat) → Option ClockParts
  | 0 => isoFraction? t i stop done
  | fuel + 1 => do
    let done := done ++ [← t.number? i 2]
    let separated := if done.length == 1 then t.isChar (i + 2) ':' else separated
    if stop ≤ i + 3 then
      some ⟨done.getD 0 0, done.getD 1 0, done.getD 2 0, 0, t.byte (i + 2) != 0⟩
    else if separated && t.isChar (i + 2) ':' then isoClock? t stop (i + 3) separated done fuel
    else if t.isChar (i + 2) '.' || t.isChar (i + 2) ',' then isoFraction? t (i + 3) stop done
    else if !separated then isoClock? t stop (i + 2) separated done fuel
    else none

/-- The time of day from `i` on, and the distance from UTC in microseconds if one is given. -/
def isoTime? (t : Tape) (i : Nat) : Option (ClockParts × Option Int) := do
  let isMark (b : Nat) : Bool := b == 43 || b == 45 || b == 90
  let zone := if isMark (t.byte i) then i else t.find isMark (i + 1) t.size
  let clock ← isoClock? t zone i true [] 3
  if t.size ≤ zone then
    if clock.leftover then none else some (clock, none)
  else if t.isChar zone 'Z' then
    if t.byte (zone + 1) == 0 then some (clock, some 0) else none
  else
    let away ← isoClock? t t.size (zone + 1) true [] 3
    if away.leftover then none
    else
      let seconds : Int := (away.hour * 3600 + away.minute * 60 + away.second : Nat)
      let micros := if seconds = 0 then 0 else seconds * 1000000 + away.micro
      some (clock, some (if t.isChar zone '-' then -micros else micros))

/-- How many bytes the character has whose first byte is `b`. -/
def charLength (b : Nat) : Nat :=
  if b < 128 then 1 else if b / 16 == 14 then 3 else if b / 16 == 15 then 4 else 2

/-- The parts of a text in the ISO form; without a distance from UTC it is in UTC. -/
def isoParts? (t : Tape) : Option Moment := do
  if t.size < 7 then none
  else
    let stop ← dateEnd? t
    let date ← isoDate? t stop
    if stop < t.size then
      let (clock, offset) ← isoTime? t (stop + charLength (t.byte stop))
      some ⟨date, clock.hour, clock.minute, clock.second, clock.micro, offset.getD 0⟩
    else some ⟨date, 0, 0, 0, 0, 0⟩

/-- A moment from a text in the ISO form. A distance from UTC of a day or more is refused before
anything else is checked. -/
def iso (s : String) : Except MomentError Moment :=
  match isoParts? ⟨s.toUTF8.data⟩ with
  | none => .error (.malformed s)
  | some m =>
    if microsPerDay ≤ m.offset.natAbs then .error (.offset m.offset) else m.check

/-- A moment from a text in either form. -/
def parse (s : String) : Except MomentError Moment :=
  match plain? s with
  | some m => .ok m
  | none => iso s

/-- A span as messages show it. -/
def spanText (micros : Int) : String :=
  let days := micros / microsPerDay
  let rest := micros % microsPerDay
  let parts :=
    [("days", days), ("seconds", rest / 1000000), ("microseconds", rest % 1000000)].filter
      fun p => p.2 != 0
  "datetime.timedelta(" ++
    (if parts.isEmpty then "0"
    else String.intercalate ", " (parts.map fun p => p.1 ++ "=" ++ Text.intText p.2)) ++ ")"

def MomentError.message : MomentError → String
  | year n => s!"year {Text.intText n} is out of range"
  | month => "month must be in 1..12"
  | day => "day is out of range for month"
  | hour => "hour must be in 0..23"
  | minute => "minute must be in 0..59"
  | second => "second must be in 0..59"
  | micro => "microsecond must be in 0..999999"
  | offset n =>
    "offset must be a timedelta strictly between -timedelta(hours=24) and timedelta(hours=24), not "
      ++ spanText n ++ "."
  | outOfRange => "date value out of range"
  | malformed s => "Invalid isoformat string: " ++ Text.quoted s

end LintHub.Time
