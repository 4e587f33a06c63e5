import LintHub.Text.Printable
import LintHub.Text.Digit

/-! # Quoted text

The form in which messages show a text. Single quotes stand around it, or double quotes when it
holds a single quote and no double one.
-/

namespace LintHub.Text

/-- The quote that needs the least escaping. -/
def quoteFor (cs : List Char) : Char :=
  if cs.contains '\'' && !cs.contains '"' then '"' else '\''

def escapeChar (quote c : Char) : String :=
  if c == quote || c == '\\' then String.ofList ['\\', c]
  else if c == '\n' then "\\n"
  else if c == '\r' then "\\r"
  else if c == '\t' then "\\t"
  else if isPrintable c then c.toString
  else if c.toNat < 0x100 then "\\x" ++ hexText 2 c.toNat
  else if c.toNat < 0x10000 then "\\u" ++ hexText 4 c.toNat
  else "\\U" ++ hexText 8 c.toNat

def quoted (s : String) : String :=
  let q := quoteFor s.toList
  q.toString ++ String.join (s.toList.map (escapeChar q)) ++ q.toString

/-- The first `n` characters. -/
def firstChars (n : Nat) (s : String) : String :=
  String.ofList (s.toList.take n)

/-- The last `n` characters. -/
def lastChars (n : Nat) (s : String) : String :=
  String.ofList (s.toList.drop (s.length - n))

end LintHub.Text
