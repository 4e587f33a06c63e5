import LintHub.Json.Value

/-! # Reading JSON

Beyond the standard the reader takes `NaN`, `Infinity` and `-Infinity`. A text that is not JSON is
refused with the place where reading stopped. A text that is read holds whole characters; one beyond
16 bits may be escaped as two halves.
-/

namespace LintHub.Json

inductive Problem where
  | value
  | fieldName
  | colon
  | comma
  | extra
  | openText
  | control
  | escape
  | unicodeEscape
  | byteOrderMark
  deriving DecidableEq, Repr

def Problem.text : Problem → String
  | value => "Expecting value"
  | fieldName => "Expecting property name enclosed in double quotes"
  | colon => "Expecting ':' delimiter"
  | comma => "Expecting ',' delimiter"
  | extra => "Extra data"
  | openText => "Unterminated string starting at"
  | control => "Invalid control character at"
  | escape => "Invalid \\escape"
  | unicodeEscape => "Invalid \\uXXXX escape"
  | byteOrderMark => "Unexpected UTF-8 BOM (decode using utf-8-sig)"

/-- Why and where reading stopped, or an integer with more digits than are read. -/
inductive Stop where
  | at (problem : Problem) (offset : Nat)
  | digits (count : Nat)
  deriving DecidableEq, Repr

/-- A place in a text. Lines and columns count from one, characters from zero. -/
structure Place where
  line : Nat
  column : Nat
  offset : Nat
  deriving DecidableEq, Repr

def Place.text (p : Place) : String :=
  s!"line {p.line} column {p.column} (char {p.offset})"

/-- The place of the character at `offset`. -/
def placeOf (cs : List Char) (offset : Nat) : Place :=
  let before := cs.take offset
  let tail := before.reverse.takeWhile (· != '\n')
  ⟨before.count '\n' + 1, tail.length + 1, offset⟩

def isSpace (c : Char) : Bool :=
  c == ' ' || c == '\t' || c == '\n' || c == '\r'

/-- What is left of a text, and the offset at which it starts. -/
structure Cursor where
  rest : List Char
  offset : Nat

namespace Cursor

def advance (c : Cursor) (n : Nat) : Cursor :=
  ⟨c.rest.drop n, c.offset + n⟩

def skipSpace (c : Cursor) : Cursor :=
  c.advance (c.rest.takeWhile isSpace).length

end Cursor

/-- The number that four hexadecimal digits write. -/
def hexQuad? : List Char → Option Nat
  | [a, b, c, d] => do
    let a ← Text.hexValue? a
    let b ← Text.hexValue? b
    let c ← Text.hexValue? c
    let d ← Text.hexValue? d
    some (((a * 16 + b) * 16 + c) * 16 + d)
  | _ => none

def isHighHalf (n : Nat) : Bool := 0xd800 ≤ n && n ≤ 0xdbff

def isLowHalf (n : Nat) : Bool := 0xdc00 ≤ n && n ≤ 0xdfff

/-- The character of a code. A half that stands alone is no character, so that no text can hold it: the
replacement character is read for it. -/
def charOfCode (n : Nat) : Char :=
  if isHighHalf n || isLowHalf n then Char.ofNat 0xfffd else Char.ofNat n

def joinHalves (high low : Nat) : Char :=
  Char.ofNat (0x10000 + (high - 0xd800) * 0x400 + (low - 0xdc00))

/-- The character that a letter after a backslash stands for. -/
def simpleEscape? : Char → Option Char
  | '"' => some '"'
  | '\\' => some '\\'
  | '/' => some '/'
  | 'b' => some (Char.ofNat 8)
  | 'f' => some (Char.ofNat 12)
  | 'n' => some '\n'
  | 'r' => some '\r'
  | 't' => some '\t'
  | _ => none

/-- The characters of a text after its opening quote, which stands at `start`. `offset` is where
`cs` starts and `done` holds the characters read, last first. -/
def readText (start offset : Nat) (done : List Char) (cs : List Char) :
    Except Stop (List Char × Cursor) :=
  match cs with
  | [] => .error (.at .openText start)
  | '"' :: rest => .ok (done.reverse, ⟨rest, offset + 1⟩)
  | ['\\'] => .error (.at .openText start)
  | '\\' :: 'u' :: rest =>
    if rest.length < 5 then .error (.at .unicodeEscape (offset + 1))
    else
      match hexQuad? (rest.take 4) with
      | none => .error (.at .unicodeEscape (offset + 1))
      | some high =>
        let after := rest.drop 4
        if isHighHalf high && 6 < after.length && after.take 2 == ['\\', 'u'] then
          match hexQuad? ((after.drop 2).take 4) with
          | none => .error (.at .unicodeEscape (offset + 7))
          | some low =>
            if isLowHalf low then
              readText start (offset + 12) (joinHalves high low :: done) (rest.drop 10)
            else readText start (offset + 6) (charOfCode high :: done) (rest.drop 4)
        else readText start (offset + 6) (charOfCode high :: done) (rest.drop 4)
  | '\\' :: c :: rest =>
    match simpleEscape? c with
    | some c => readText start (offset + 2) (c :: done) rest
    | none => .error (.at .escape offset)
  | c :: rest =>
    if c.toNat < 32 then .error (.at .control offset)
    else readText start (offset + 1) (c :: done) rest
termination_by cs.length
decreasing_by all_goals simp only [List.length_cons, List.length_drop]; omega

/-- The parts of a number as written. -/
structure NumberParts where
  negative : Bool
  whole : List Char
  fraction : List Char
  exponent : Option (Bool × List Char)
  length : Nat

/-- Splits a number off: a sign, whole digits without a leading zero, and a fraction or an exponent
only where digits follow. -/
def numberParts? (cs : List Char) : Option NumberParts :=
  let negative := cs.head? == some '-'
  let body := if negative then cs.drop 1 else cs
  let whole :=
    if body.head? == some '0' then ['0'] else body.takeWhile Char.isDigit
  if whole.isEmpty then none
  else
    let afterWhole := body.drop whole.length
    let fraction :=
      if afterWhole.head? == some '.' then (afterWhole.drop 1).takeWhile Char.isDigit else []
    let fractionLength := if fraction.isEmpty then 0 else fraction.length + 1
    let afterFraction := afterWhole.drop fractionLength
    let (exponent, exponentLength) :=
      if afterFraction.head? == some 'e' || afterFraction.head? == some 'E' then
        let signed := afterFraction.drop 1
        let hasSign := signed.head? == some '-' || signed.head? == some '+'
        let ds := (if hasSign then signed.drop 1 else signed).takeWhile Char.isDigit
        if ds.isEmpty then (none, 0)
        else
          (some (signed.head? == some '-', ds), 1 + (if hasSign then 1 else 0) + ds.length)
      else (none, 0)
    some ⟨negative, whole, fraction, exponent,
      (if negative then 1 else 0) + whole.length + fractionLength + exponentLength⟩

def natOfChars (cs : List Char) : Nat :=
  Text.natOfDigits (cs.map fun c => c.toNat - 48)

namespace NumberParts

/-- A number with a fraction or an exponent is floating-point. -/
def toJson (p : NumberParts) : Except Stop Json :=
  if p.fraction.isEmpty && p.exponent.isNone then
    if digitLimit < p.whole.length then .error (.digits p.whole.length)
    else
      let n := natOfChars p.whole
      .ok (.int (if p.negative then -n else n))
  else
    let power : Int :=
      match p.exponent with
      | some (true, ds) => -(natOfChars ds : Int)
      | some (false, ds) => natOfChars ds
      | none => 0
    .ok (.float (Binary64.ofDecimal p.negative (natOfChars (p.whole ++ p.fraction))
      (power - p.fraction.length)))

end NumberParts

/-- The words that stand for a value. -/
def words : List (List Char × Json) :=
  [ ("null".toList, .null), ("true".toList, .bool true), ("false".toList, .bool false),
    ("NaN".toList, .float .notANumber), ("Infinity".toList, .float (.infinite false)),
    ("-Infinity".toList, .float (.infinite true)) ]

/-- A word or a number. -/
def readAtom (c : Cursor) : Except Stop (Json × Cursor) :=
  match words.find? fun w => w.1.isPrefixOf c.rest with
  | some (w, v) => .ok (v, c.advance w.length)
  | none =>
    match numberParts? c.rest with
    | some p => p.toJson.map fun v => (v, c.advance p.length)
    | none => .error (.at .value c.offset)

mutual

/-- A value at the cursor. Every call takes one from the fuel. -/
def readValue (fuel : Nat) (c : Cursor) : Except Stop (Json × Cursor) :=
  match fuel with
  | 0 => .error (.at .value c.offset)
  | fuel + 1 =>
    match c.rest with
    | '"' :: rest =>
      match readText c.offset (c.offset + 1) [] rest with
      | .ok (cs, c) => .ok (.str (String.ofList cs), c)
      | .error e => .error e
    | '[' :: _ =>
      let c := (c.advance 1).skipSpace
      if c.rest.head? == some ']' then .ok (.arr [], c.advance 1)
      else readItems fuel [] c
    | '{' :: _ =>
      let c := (c.advance 1).skipSpace
      if c.rest.head? == some '}' then .ok (.obj [], c.advance 1)
      else readFields fuel [] c
    | _ => readAtom c

/-- The items from the cursor to the closing bracket. -/
def readItems (fuel : Nat) (done : List Json) (c : Cursor) : Except Stop (Json × Cursor) :=
  match fuel with
  | 0 => .error (.at .value c.offset)
  | fuel + 1 =>
    match readValue fuel c with
    | .error e => .error e
    | .ok (v, c) =>
      let c := c.skipSpace
      match c.rest with
      | ']' :: _ => .ok (.arr (done ++ [v]), c.advance 1)
      | ',' :: _ => readItems fuel (done ++ [v]) (c.advance 1).skipSpace
      | _ => .error (.at .comma c.offset)

/-- The fields from the cursor to the closing brace. -/
def readFields (fuel : Nat) (done : Fields) (c : Cursor) : Except Stop (Json × Cursor) :=
  match fuel with
  | 0 => .error (.at .value c.offset)
  | fuel + 1 =>
    match c.rest with
    | '"' :: rest =>
      match readText c.offset (c.offset + 1) [] rest with
      | .error e => .error e
      | .ok (name, c) =>
        let c := c.skipSpace
        match c.rest with
        | ':' :: _ =>
          match readValue fuel (c.advance 1).skipSpace with
          | .error e => .error e
          | .ok (v, c) =>
            let done := setNamed done (String.ofList name) v
            let c := c.skipSpace
            match c.rest with
            | '}' :: _ => .ok (.obj done, c.advance 1)
            | ',' :: _ => readFields fuel done (c.advance 1).skipSpace
            | _ => .error (.at .comma c.offset)
        | _ => .error (.at .colon c.offset)
    | _ => .error (.at .fieldName c.offset)

end

/-- Why a text is not JSON. -/
inductive ReadError where
  | malformed (problem : Problem) (place : Place)
  | tooManyDigits (count : Nat)
  deriving DecidableEq, Repr

/-- Reads a text of characters as one value with nothing after it. -/
def readChars (cs : List Char) : Except Stop Json :=
  if cs.head? == some (Char.ofNat 0xfeff) then .error (.at .byteOrderMark 0)
  else
    match readValue (2 * cs.length + 2) (Cursor.skipSpace ⟨cs, 0⟩) with
    | .error e => .error e
    | .ok (v, c) =>
      let c := c.skipSpace
      if c.rest.isEmpty then .ok v else .error (.at .extra c.offset)

def read (s : String) : Except ReadError Json :=
  match readChars s.toList with
  | .ok v => .ok v
  | .error (.at problem offset) => .error (.malformed problem (placeOf s.toList offset))
  | .error (.digits count) => .error (.tooManyDigits count)

end LintHub.Json
