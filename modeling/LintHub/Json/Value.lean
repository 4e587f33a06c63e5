import LintHub.Named
import LintHub.Number.Shortest

/-! # JSON values

Integers of any size are kept apart from floating-point numbers, and objects keep the order in
which their names first came.
-/

namespace LintHub

inductive Json where
  | null
  | bool (b : Bool)
  | int (i : Int)
  | float (x : Binary64)
  | str (s : String)
  | arr (items : List Json)
  | obj (fields : List (String × Json))
  deriving Repr, Inhabited

/-- The kinds of value that messages speak of. -/
inductive ValueKind where
  | null
  | bool
  | int
  | float
  | text
  | list
  | object
  deriving DecidableEq, Repr

/-- The name under which messages speak of a kind. -/
def ValueKind.label : ValueKind → String
  | null => "NoneType"
  | bool => "bool"
  | int => "int"
  | float => "float"
  | text => "str"
  | list => "list"
  | object => "dict"

/-- Fields of an object by name; a name stands at most once. -/
abbrev Fields := List (String × Json)

namespace Fields

def get? (fields : Fields) (name : String) : Option Json :=
  fields.lookup name

/-- The fields of a list of pairs, the last value of a repeated name. -/
def ofList (pairs : List (String × Json)) : Fields :=
  pairs.foldl (fun fields p => setNamed fields p.1 p.2) []

def names (fields : Fields) : List String :=
  fields.map (·.1)

@[simp] theorem get?_nil (name : String) : get? [] name = none := rfl

end Fields

namespace Json

/-- The most digits of an integer that are read or written. -/
def digitLimit : Nat := 4300

def kind : Json → ValueKind
  | null => .null
  | bool _ => .bool
  | int _ => .int
  | float _ => .float
  | str _ => .text
  | arr _ => .list
  | obj _ => .object

/-- Null, false, zero and everything empty count as not given. -/
def isBlank : Json → Bool
  | null => true
  | bool b => !b
  | int i => i == 0
  | float x => x.isZero
  | str s => s.isEmpty
  | arr items => items.isEmpty
  | obj fields => fields.isEmpty

/-- Whether the value is this text. -/
def isText (text : String) : Json → Bool
  | str s => s == text
  | _ => false

/-- The value, or `fallback` when it counts as not given. -/
def orElse (v fallback : Json) : Json :=
  if v.isBlank then fallback else v

end Json

/-- A value that can be a key: it compares by what it says, so that `1`, `1.0` and `true` agree. -/
inductive Scalar where
  | null
  | bool (b : Bool)
  | int (i : Int)
  | float (x : Binary64)
  | str (s : String)
  deriving DecidableEq, Repr

/-- What a key says: whole numbers in one form whatever they were written as. -/
inductive Identity where
  | null
  | int (i : Int)
  | float (x : Binary64)
  | str (s : String)
  deriving DecidableEq, Repr

namespace Scalar

def identity : Scalar → Identity
  | null => .null
  | bool b => .int (if b then 1 else 0)
  | int i => .int i
  | float x =>
    match x.toInt? with
    | some i => .int i
    | none => .float x
  | str s => .str s

def toJson : Scalar → Json
  | null => .null
  | bool b => .bool b
  | int i => .int i
  | float x => .float x
  | str s => .str s

/-- The key as the name of an object's field. -/
def fieldName : Scalar → String
  | null => "null"
  | bool b => if b then "true" else "false"
  | int i => Text.intText i
  | float x => x.text
  | str s => s

/-- The key as a value of its own, unless lists or objects stand in it. -/
def ofJson? : Json → Option Scalar
  | .null => some null
  | .bool b => some (bool b)
  | .int i => some (int i)
  | .float x => some (float x)
  | .str s => some (str s)
  | _ => none

end Scalar

end LintHub
