import LintHub.Json.Value

/-! # Writing JSON

Text is written in ASCII: every other character by its code, one beyond 16 bits as two halves.
Integers of too many digits cannot be written.
-/

namespace LintHub.Json

def escapeCode (n : Nat) : List Char :=
  '\\' :: 'u' :: (Text.hexText 4 n).toList

/-- A character inside quotes. -/
def escapeChar (c : Char) : List Char :=
  if c == '"' then ['\\', '"']
  else if c == '\\' then ['\\', '\\']
  else if c == '\n' then ['\\', 'n']
  else if c == '\r' then ['\\', 'r']
  else if c == '\t' then ['\\', 't']
  else if c.toNat == 8 then ['\\', 'b']
  else if c.toNat == 12 then ['\\', 'f']
  else if 32 ≤ c.toNat && c.toNat < 127 then [c]
  else if c.toNat < 0x10000 then escapeCode c.toNat
  else
    let n := c.toNat - 0x10000
    escapeCode (0xd800 + n / 0x400) ++ escapeCode (0xdc00 + n % 0x400)

def writeText (s : String) : String :=
  String.ofList ('"' :: s.toList.flatMap escapeChar ++ ['"'])

def writeFloat : Binary64 → String
  | .notANumber => "NaN"
  | .infinite negative => if negative then "-Infinity" else "Infinity"
  | x => x.text

mutual

/-- On one line, with a space after each comma and colon. -/
def write : Json → String
  | null => "null"
  | bool b => if b then "true" else "false"
  | int i => Text.intText i
  | float x => writeFloat x
  | str s => writeText s
  | arr items => "[" ++ String.intercalate ", " (writeItems items) ++ "]"
  | obj fields => "\x7b" ++ String.intercalate ", " (writeFields fields) ++ "\x7d"

def writeItems : List Json → List String
  | [] => []
  | v :: vs => write v :: writeItems vs

def writeFields : List (String × Json) → List String
  | [] => []
  | (n, v) :: fs => (writeText n ++ ": " ++ write v) :: writeFields fs

end

/-- A line break and `depth` steps of two spaces. -/
def breakLine (depth : Nat) : String :=
  String.ofList ('\n' :: List.replicate (2 * depth) ' ')

mutual

/-- One item to a line, each level two spaces further in; empty lists and objects stay closed. -/
def writeIndented (depth : Nat) : Json → String
  | arr (v :: vs) =>
    "[" ++ breakLine (depth + 1) ++
      String.intercalate ("," ++ breakLine (depth + 1)) (indentedItems (depth + 1) (v :: vs)) ++
      breakLine depth ++ "]"
  | obj (f :: fs) =>
    "\x7b" ++ breakLine (depth + 1) ++
      String.intercalate ("," ++ breakLine (depth + 1)) (indentedFields (depth + 1) (f :: fs)) ++
      breakLine depth ++ "\x7d"
  | v => write v

def indentedItems (depth : Nat) : List Json → List String
  | [] => []
  | v :: vs => writeIndented depth v :: indentedItems depth vs

def indentedFields (depth : Nat) : List (String × Json) → List String
  | [] => []
  | (n, v) :: fs => (writeText n ++ ": " ++ writeIndented depth v) :: indentedFields depth fs

end

mutual

/-- Whether each integer has few enough digits to be written. -/
def integersFit : Json → Bool
  | int i => decide ((Text.natText i.natAbs).length ≤ digitLimit)
  | arr items => itemsFit items
  | obj fields => fieldsFit fields
  | _ => true

def itemsFit : List Json → Bool
  | [] => true
  | v :: vs => integersFit v && itemsFit vs

def fieldsFit : List (String × Json) → Bool
  | [] => true
  | (_, v) :: fs => integersFit v && fieldsFit fs

end

end LintHub.Json
