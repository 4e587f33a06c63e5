import LintHub.Fault
import LintHub.Text.Blank

/-! # Lenient readings of values

Documents may hold any value in any field. An integer is read from text, numbers and booleans; items
are those of a list, the characters of a text or the names of an object's fields.
-/

namespace LintHub

/-- Digits with single underscores between them. -/
def digitsOf? : List Char → Option (List Nat)
  | [] => none
  | [c] => (Text.digitValue? c).map ([·])
  | c :: '_' :: cs => do some ((← Text.digitValue? c) :: (← digitsOf? cs))
  | c :: cs => do some ((← Text.digitValue? c) :: (← digitsOf? cs))

/-- The integer that a text writes, with blanks around it and a sign in front. -/
def intOfText (s : String) : Except Fault Int :=
  let cs := Text.trimChars Text.isNumberBlank s.toList
  let negative := cs.head? == some '-'
  let signed := negative || cs.head? == some '+'
  match digitsOf? (if signed then cs.drop 1 else cs) with
  | none => .error (.integerText s)
  | some ds =>
    if Json.digitLimit < ds.length then .error (.integerDigits ds.length)
    else
      let n : Int := Text.natOfDigits ds
      .ok (if negative then -n else n)

def intOfFloat (x : Binary64) : Except Fault Int :=
  match x with
  | .infinite _ => .error .infiniteInteger
  | .notANumber => .error .undefinedInteger
  | x => .ok (x.truncate?.getD 0)

namespace Json

def toInt : Json → Except Fault Int
  | bool b => .ok (if b then 1 else 0)
  | int i => .ok i
  | float x => intOfFloat x
  | str s => intOfText s
  | v => .error (.misused .integer v.kind)

/-- The fields of an object that is asked for one. -/
def fieldsFor (member : String) : Json → Except Fault Fields
  | obj fields => .ok fields
  | v => .error (.noMember v.kind member)

/-- The text that is asked for one of its operations. -/
def textFor (member : String) : Json → Except Fault String
  | str s => .ok s
  | v => .error (.noMember v.kind member)

def items : Json → Except Fault (List Json)
  | arr vs => .ok vs
  | str s => .ok (s.toList.map fun c => str c.toString)
  | obj fields => .ok (fields.map fun f => str f.1)
  | v => .error (.notIterable v.kind)

/-- The value as a key. -/
def toScalar (v : Json) : Except Fault Scalar :=
  match Scalar.ofJson? v with
  | some s => .ok s
  | none => .error (.notHashable v.kind)

end Json

namespace Fields

/-- A field, null if it is not there. -/
def value (fields : Fields) (name : String) : Json :=
  (fields.get? name).getD .null

/-- A field, or `fallback` when it is not there or counts as not given. -/
def valueOr (fields : Fields) (name : String) (fallback : Json) : Json :=
  (fields.value name).orElse fallback

end Fields

end LintHub
