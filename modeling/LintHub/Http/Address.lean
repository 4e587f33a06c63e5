import LintHub.Text.Lines
import LintHub.Text.Utf8

/-! # Addresses

The path and the query of a request. Steps of dots in the path are resolved and what is written with
percent signs is decoded; bytes that are no text become replacement characters.
-/

namespace LintHub.Http

open Text

/-! ## Percent signs -/

-- The digits behind a percent sign are those of any hexadecimal number.
export Text (hexValue?)

/-- The bytes of a text; a percent sign and two hexadecimal digits stand for one byte. -/
def percentBytes : List Char → List UInt8
  | '%' :: a :: b :: cs =>
    match hexValue? a, hexValue? b with
    | some x, some y => UInt8.ofNat (16 * x + y) :: percentBytes cs
    | _, _ => encodeUtf8 "%" ++ percentBytes (a :: b :: cs)
  | c :: cs => encodeUtf8 c.toString ++ percentBytes cs
  | [] => []

/-- The characters of bytes, malformed parts replaced. Every part takes one from the fuel. -/
def lenientChars (fuel : Nat) (bs : List UInt8) : List Char :=
  match fuel with
  | 0 => []
  | fuel + 1 =>
    match decodeFrom 0 bs with
    | .ok cs => cs
    | .error e =>
      let start :=
        match decodeFrom 0 (bs.take e.position) with
        | .ok cs => cs
        | .error _ => []
      start ++ Char.ofNat 0xfffd :: lenientChars fuel (bs.drop (e.position + e.bytes.length))

def percentDecode (s : String) : String :=
  let bs := percentBytes s.toList
  String.ofList (lenientChars (bs.length + 1) bs)

/-! ## Paths -/

/-- Drops single dots; two dots take away the step before them. -/
def resolveDots (done : List String) : List String → List String
  | [] => done.reverse
  | "." :: steps => resolveDots done steps
  | ".." :: steps =>
    resolveDots (if done.isEmpty || done == [""] then done else done.drop 1) steps
  | step :: steps => resolveDots (step :: done) steps

structure Address where
  path : String
  query : List (String × String)
  deriving DecidableEq, Repr

/-- A name and its value; a plus sign stands for a blank. -/
def parameter (s : String) : String × String :=
  let cs := s.toList.map fun c => if c = '+' then ' ' else c
  let name := cs.takeWhile (· ≠ '=')
  (percentDecode (String.ofList name), percentDecode (String.ofList ((cs.drop name.length).drop 1)))

/-- The address that a request names. The path is decoded twice: by the sender and on arrival. -/
def Address.ofText (s : String) : Address :=
  let cs := s.toList.takeWhile (· ≠ '#')
  let path := cs.takeWhile (· ≠ '?')
  let steps := resolveDots [] (parts '/' (String.ofList path))
  let query := parts '&' (String.ofList ((cs.drop path.length).drop 1))
  { path := percentDecode (percentDecode (String.intercalate "/" steps))
    query := (query.filter fun p => !p.isEmpty).map parameter }

/-- The value of a parameter; of several the last one counts. -/
def Address.get? (a : Address) (name : String) : Option String :=
  a.query.reverse.lookup name

end LintHub.Http
