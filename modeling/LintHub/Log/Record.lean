import LintHub.Log.Template
import LintHub.Json.Writer

/-! # Log records

A record is written as one line of JSON: when it was made, its level, its logger and its message,
then what is attached to it and the fault it reports.
-/

namespace LintHub

/-- The levels that have a name. -/
def levelNames : List (Int × String) :=
  [(50, "CRITICAL"), (40, "ERROR"), (30, "WARNING"), (20, "INFO"), (10, "DEBUG"), (0, "NOTSET")]

/-- Further names under which a level can be asked for. -/
def levelAliases : List (String × Int) :=
  [("FATAL", 50), ("WARN", 30)]

def levelOfName? (name : String) : Option Int :=
  ((levelNames.find? fun p => p.2 == name).map (·.1)).orElse fun _ => levelAliases.lookup name

/-- What a line shows for a level: its name, or its number after a word. -/
def levelText (level : Int) : String :=
  (levelNames.lookup level).getD ("Level " ++ Text.intText level)

structure LogRecord where
  logger : String
  level : Int
  message : Json
  args : List Json
  /-- Seconds from the start of 1970 in UTC, a number. -/
  created : Json
  extras : Fields
  fault : Option Fault
  /-- The lines that lead to the fault, as they stand before it. -/
  traceback : String := ""
  deriving Repr

/-- The day number of the first day of 1970. -/
def epochDay : Int := 719163

/-- The bound of a system time in seconds, two to the power of 63. -/
def timeBound : Int := 9223372036854775808

/-- The first system time whose year is a machine word, and the first one after those. -/
def yearRange : Int × Int := (-67768040609740800, 67768036191676800)

def timeTooLarge : Fault :=
  .foreign .overflow [.str "timestamp out of range for platform time_t"]

/-- A time in seconds as microseconds, rounded to the even neighbour. -/
def microsOfSeconds (x : Binary64) : Except Fault Int :=
  match x, x.toRatio? with
  | .notANumber, _ => .error (.formatValue "Invalid value NaN (not a number)")
  | _, none => .error timeTooLarge
  | _, some (n, d) =>
    let whole := Int.tdiv n d
    let rest := Binary64.ofSignedRatio ((n - whole * d) * 1000000) d
    let micros :=
      match rest.toRatio? with
      | some (n, d) => Time.roundWith 0 n d
      | none => 0
    .ok (whole * 1000000 + micros)

/-- Microseconds from the start of 1970. -/
def epochMicros : Json → Except Fault Int
  | .int i => .ok (i * 1000000)
  | .bool b => .ok (if b then 1000000 else 0)
  | .float x => microsOfSeconds x
  | v =>
    .error (.format ("'" ++ v.kind.label ++ "' object cannot be interpreted as an integer"))

/-- The moment of a record. A year that the calendar does not have is told as a word of 32 bits. -/
def momentOfEpoch (seconds : Json) : Except Fault Time.Moment := do
  let micros ← epochMicros seconds
  let seconds := micros / 1000000
  if seconds < -timeBound ∨ timeBound ≤ seconds then
    throw timeTooLarge
  else if seconds < yearRange.1 ∨ yearRange.2 ≤ seconds then
    throw (.foreign .system [.int 75, .str "Value too large for defined data type"])
  else
    let total := epochDay * Time.microsPerDay + micros
    let date := Time.Date.ofDayNumber (total / Time.microsPerDay)
    if date.year < 1 ∨ 9999 < date.year then
      throw (.moment (.year (date.year.bmod 4294967296)))
    else (Time.Moment.ofUtcMicros total).mapError .moment

/-- What may be attached to a record, in the order in which it is written. -/
def extraNames : List String := ["tool", "analysis_id", "job_id"]

namespace LogRecord

def toJson (r : LogRecord) : Except Fault Json := do
  let time ← momentOfEpoch r.created
  let message ← Template.fill r.message.display r.args
  return .obj <|
    [ ("ts", .str time.isoText), ("level", .str (levelText r.level)), ("logger", .str r.logger),
      ("msg", .str message) ] ++
    extraNames.filterMap (fun name => (r.extras.get? name).map fun v => (name, v)) ++
    (r.fault.map fun f => ("exc", Json.str (r.traceback ++ f.trace))).toList

/-- The line of a record. An integer of too many digits cannot be written. -/
def line (r : LogRecord) : Except Fault String := do
  let doc ← r.toJson
  if doc.integersFit then .ok doc.write else .error .integerTooLong

end LogRecord

end LintHub
