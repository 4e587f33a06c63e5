import LintHub.Json.Coerce

/-! # Checked documents

A model of a document says what each field has to hold. Close values are taken for what is asked: a
number in a text, a word for yes or no. Everything that is refused is reported, in the order of the
fields.
-/

namespace LintHub

/-- A checked value, or everything that is wrong with it. -/
abbrev Checked (α : Type) := Except (List SchemaIssue) α

namespace Checked

variable {α β : Type}

def refuse (rule : String) : Checked α :=
  .error [⟨[], rule⟩]

/-- Says where the issues of a part stand. -/
def within (step : Step) (c : Checked α) : Checked α :=
  c.mapError (·.map fun i => { i with location := step :: i.location })

/-- Checks both parts and keeps the issues of both. -/
def both (c : Checked (α → β)) (d : Checked α) : Checked β :=
  match c, d with
  | .ok f, .ok a => .ok (f a)
  | .ok _, .error is => .error is
  | .error is, .ok _ => .error is
  | .error is, .error js => .error (is ++ js)

/-- Checks items one by one, the first of which has an index. -/
def eachFrom (check : Json → Checked α) (index : Nat) : List Json → Checked (List α)
  | [] => .ok []
  | v :: vs =>
    both ((within (.index index) (check v)).map fun a as => a :: as) (eachFrom check (index + 1) vs)

end Checked

/-! ## Rules for values -/

namespace Schema

open Checked

def text : Json → Checked String
  | .str s => .ok s
  | _ => refuse "string_type"

def list {α : Type} (item : Json → Checked α) : Json → Checked (List α)
  | .arr vs => eachFrom item 0 vs
  | _ => refuse "list_type"

def texts : Json → Checked (List String) :=
  list text

/-- An object with any fields. -/
def fields : Json → Checked Fields
  | .obj fs => .ok fs
  | _ => refuse "dict_type"

/-- A value that may be null. -/
def optional {α : Type} (check : Json → Checked α) : Json → Checked (Option α)
  | .null => .ok none
  | v => (check v).map some

/-- Drops a point with nothing but zeros after it. -/
def dropZeroFraction (cs : List Char) : List Char :=
  let whole := cs.takeWhile (· != '.')
  match cs.drop whole.length with
  | _ :: part => if part.all (· == '0') then whole else cs
  | [] => cs

/-- ASCII digits with single underscores between them. -/
def plainDigits? (cs : List Char) : Option Nat :=
  if cs.all fun c => c.isDigit || c == '_' then (digitsOf? cs).map Text.natOfDigits else none

/-- The most characters of a text that is read as an integer. -/
def integerTextLimit : Nat := 4300

/-- The integer in a text: a sign, digits, and a fraction of zeros at most. -/
def integerOfText (s : String) : Checked Int :=
  let cs := Text.trimChars Text.isNumberBlank s.toList
  if integerTextLimit < cs.length then refuse "int_parsing_size"
  else
    let negative := cs.head? == some '-'
    let signed := negative || cs.head? == some '+'
    match plainDigits? (dropZeroFraction (if signed then cs.drop 1 else cs)) with
    | some n => .ok (if negative then -(n : Int) else n)
    | none => refuse "int_parsing"

/-- Two to the power of 63: machine words are below it. -/
def wordBound : Int := 9223372036854775808

/-- The integer that a floating-point number is, within a machine word. -/
def integerOfFloat (x : Binary64) : Checked Int :=
  match x.truncate? with
  | none => refuse "finite_number"
  | some i =>
    if x.toInt?.isNone then refuse "int_from_float"
    else if -wordBound < i ∧ i < wordBound then .ok i
    else refuse "int_parsing_size"

def integer : Json → Checked Int
  | .int i => .ok i
  | .bool b => .ok (if b then 1 else 0)
  | .float x => integerOfFloat x
  | .str s => integerOfText s
  | _ => refuse "int_type"

def yesWords : List String := ["1", "on", "t", "true", "y", "yes"]

def noWords : List String := ["0", "off", "f", "false", "n", "no"]

def asciiLower (s : String) : String :=
  String.ofList (s.toList.map Char.toLower)

/-- One is yes and zero is no. -/
def boolOfInt (i : Int) : Checked Bool :=
  if i = 1 then .ok true else if i = 0 then .ok false else refuse "bool_parsing"

def bool : Json → Checked Bool
  | .bool b => .ok b
  | .int i => if -wordBound ≤ i ∧ i < wordBound then boolOfInt i else refuse "bool_type"
  | .float x =>
    match integerOfFloat x with
    | .ok i => boolOfInt i
    | .error _ => refuse "bool_type"
  | .str s =>
    if yesWords.contains (asciiLower s) then .ok true
    else if noWords.contains (asciiLower s) then .ok false
    else refuse "bool_parsing"
  | _ => refuse "bool_type"

/-! ## Fields of an object -/

/-- A field that may be left out. -/
def field {α : Type} (fs : Fields) (name : String) (fallback : α) (check : Json → Checked α) :
    Checked α :=
  match fs.get? name with
  | some v => within (.field name) (check v)
  | none => .ok fallback

/-- A field that has to be there. -/
def required {α : Type} (fs : Fields) (name : String) (check : Json → Checked α) : Checked α :=
  match fs.get? name with
  | some v => within (.field name) (check v)
  | none => within (.field name) (refuse "missing")

end Schema

end LintHub
