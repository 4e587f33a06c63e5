import LintHub.Json.Value
import LintHub.Text.Quoted

/-! # Values in messages

A text stands for itself at the top of a message and in quotes inside lists and objects.
-/

namespace LintHub.Json

mutual

/-- The value as it stands inside another one. -/
def shown : Json → String
  | null => "None"
  | bool b => if b then "True" else "False"
  | int i => Text.intText i
  | float x => x.text
  | str s => Text.quoted s
  | arr items => "[" ++ String.intercalate ", " (shownItems items) ++ "]"
  | obj fields => "\x7b" ++ String.intercalate ", " (shownFields fields) ++ "\x7d"

def shownItems : List Json → List String
  | [] => []
  | v :: vs => shown v :: shownItems vs

def shownFields : List (String × Json) → List String
  | [] => []
  | (n, v) :: fs => (Text.quoted n ++ ": " ++ shown v) :: shownFields fs

end

/-- The value as it stands on its own. -/
def display : Json → String
  | str s => s
  | v => shown v

/-- Several values in parentheses; a single one has a comma after it. -/
def shownTuple (vs : List Json) : String :=
  match vs with
  | [v] => "(" ++ shown v ++ ",)"
  | vs => "(" ++ String.intercalate ", " (shownItems vs) ++ ")"

end LintHub.Json
