/-! # Lines and parts

A text splits into lines at more characters than the newline; a text read from a file has every line
end turned into one newline. It splits into parts at one character only.
-/

namespace LintHub.Text

/-- Ends a line on its own; a carriage return with a newline after it ends one line together. -/
def isLineEnd (c : Char) : Bool :=
  let n := c.toNat
  (10 ≤ n && n ≤ 13) || (28 ≤ n && n ≤ 30) || n == 0x85 || n == 0x2028 || n == 0x2029

/-- The lines of a text after the reversed start `line` of the first one. -/
def linesFrom (line : List Char) : List Char → List (List Char)
  | [] => if line.isEmpty then [] else [line.reverse]
  | '\r' :: '\n' :: cs => line.reverse :: linesFrom [] cs
  | c :: cs => if isLineEnd c then line.reverse :: linesFrom [] cs else linesFrom (c :: line) cs

/-- The lines of a text without their ends; an empty last line does not count. -/
def lines (s : String) : List String :=
  (linesFrom [] s.toList).map String.ofList

/-- Whether a text, or the text before a newline at its end, is of a form. -/
def holdsOnLine (form : List Char → Bool) (cs : List Char) : Bool :=
  form cs || (cs.getLast? == some '\n' && form cs.dropLast)

/-- Turns both `\r\n` and a lone `\r` into a newline. -/
def unifyNewlines : List Char → List Char
  | [] => []
  | '\r' :: '\n' :: cs => '\n' :: unifyNewlines cs
  | c :: cs => (if c == '\r' then '\n' else c) :: unifyNewlines cs

/-- The parts of a text between occurrences of a character, after the reversed start `part` of the
first one. -/
def partsFrom (sep : Char) (part : List Char) : List Char → List (List Char)
  | [] => [part.reverse]
  | c :: cs =>
    if c = sep then part.reverse :: partsFrom sep [] cs else partsFrom sep (c :: part) cs

/-- The parts of a text between occurrences of a character; there is one more than of these. -/
def parts (sep : Char) (s : String) : List String :=
  (partsFrom sep [] s.toList).map String.ofList

end LintHub.Text
