import LintHub.Json.Coerce
import LintHub.Json.Display
import LintHub.Number.Places
import LintHub.Text.Casing

/-! # Message templates

A template is text with directives that start with `%`; two such signs stand for one. A directive
takes the next argument, or the one under its key, and lays it out by flags, width, precision and
conversion.
-/

namespace LintHub.Template

/-- A width or precision: written out, or taken from the arguments. -/
inductive Amount where
  | written (n : Nat)
  | given
  deriving DecidableEq, Repr

/-- The key of a directive; an opening parenthesis may lack its partner. -/
inductive Key where
  | none
  | named (name : String)
  | unclosed
  deriving DecidableEq, Repr

structure Flags where
  left : Bool
  plus : Bool
  blank : Bool
  marked : Bool
  zero : Bool
  deriving DecidableEq, Repr

structure Directive where
  key : Key
  flags : Flags
  width : Option Amount
  precision : Option Amount
  /-- Missing where the template ends first. -/
  conversion : Option Char
  deriving DecidableEq, Repr

/-! ## Reading directives -/

/-- What stands before the parenthesis that closes the first one, and what follows. -/
def closeKey (depth : Nat) (done : List Char) : List Char → Option (List Char × List Char)
  | [] => none
  | c :: cs =>
    if c == ')' then
      match depth with
      | 0 => some (done.reverse, cs)
      | depth + 1 => closeKey depth (c :: done) cs
    else closeKey (if c == '(' then depth + 1 else depth) (c :: done) cs

theorem length_closeKey_le {depth : Nat} {done cs name rest : List Char}
    (closed : closeKey depth done cs = some (name, rest)) : rest.length ≤ cs.length := by
  induction cs generalizing depth done with
  | nil => cases closed
  | cons c cs ih =>
    simp only [closeKey] at closed
    split at closed
    · cases depth with
      | zero =>
        cases closed
        exact Nat.le_succ _
      | succ depth => exact Nat.le_succ_of_le (ih closed)
    · exact Nat.le_succ_of_le (ih closed)

def readKey (cs : List Char) : Key × List Char :=
  match cs with
  | '(' :: rest =>
    match closeKey 0 [] rest with
    | some (name, rest) => (.named (String.ofList name), rest)
    | none => (.unclosed, [])
  | cs => (.none, cs)

theorem length_readKey_le (cs : List Char) : (readKey cs).2.length ≤ cs.length := by
  unfold readKey
  split
  · split
    · next closed => exact Nat.le_succ_of_le (length_closeKey_le closed)
    · exact Nat.zero_le _
  · exact Nat.le_refl _

def isFlag (c : Char) : Bool :=
  c == '-' || c == '+' || c == ' ' || c == '#' || c == '0'

def flagsOf (cs : List Char) : Flags :=
  ⟨cs.contains '-', cs.contains '+', cs.contains ' ', cs.contains '#', cs.contains '0'⟩

/-- A number in plain digits, if one stands here. -/
def readNumber (cs : List Char) : Option Nat × List Char :=
  let ds := cs.takeWhile Char.isDigit
  if ds.isEmpty then (none, cs)
  else (some (Text.natOfDigits (ds.filterMap Text.digitValue?)), cs.dropWhile Char.isDigit)

theorem length_readNumber_le (cs : List Char) : (readNumber cs).2.length ≤ cs.length := by
  unfold readNumber
  dsimp only
  split
  · exact Nat.le_refl _
  · exact (List.dropWhile_sublist _).length_le

def readAmount (cs : List Char) : Option Amount × List Char :=
  match cs with
  | '*' :: rest => (some .given, rest)
  | cs => ((readNumber cs).1.map .written, (readNumber cs).2)

theorem length_readAmount_le (cs : List Char) : (readAmount cs).2.length ≤ cs.length := by
  unfold readAmount
  split
  · exact Nat.le_succ _
  · exact length_readNumber_le _

/-- A precision; without digits it is zero. -/
def readPrecision (cs : List Char) : Option Amount × List Char :=
  match cs with
  | '.' :: rest =>
    match readAmount rest with
    | (none, rest) => (some (.written 0), rest)
    | found => found
  | cs => (none, cs)

theorem length_readPrecision_le (cs : List Char) : (readPrecision cs).2.length ≤ cs.length := by
  unfold readPrecision
  split
  · next rest =>
    have behind := length_readAmount_le rest
    split
    · next none =>
      rw [none] at behind
      exact Nat.le_succ_of_le behind
    · exact Nat.le_succ_of_le behind
  · exact Nat.le_refl _

/-- One letter of size, which means nothing. -/
def dropSize : List Char → List Char
  | c :: cs => if c == 'h' || c == 'l' || c == 'L' then cs else c :: cs
  | [] => []

theorem length_dropSize_le (cs : List Char) : (dropSize cs).length ≤ cs.length := by
  unfold dropSize
  split
  · split
    · exact Nat.le_succ _
    · exact Nat.le_refl _
  · exact Nat.le_refl _

/-- The directive after a `%`, and what follows it. -/
def readDirective (cs : List Char) : Directive × List Char :=
  let (key, cs) := readKey cs
  let flags := flagsOf (cs.takeWhile isFlag)
  let (width, cs) := readAmount (cs.dropWhile isFlag)
  let (precision, cs) := readPrecision cs
  let cs := dropSize cs
  (⟨key, flags, width, precision, cs.head?⟩, cs.drop 1)

theorem length_readDirective_le (cs : List Char) : (readDirective cs).2.length ≤ cs.length := by
  simp only [readDirective, List.length_drop]
  calc (dropSize _).length - 1
    _ ≤ (readPrecision _).2.length := Nat.le_trans (Nat.sub_le _ _) (length_dropSize_le _)
    _ ≤ (readAmount _).2.length := length_readPrecision_le _
    _ ≤ ((readKey cs).2.dropWhile isFlag).length := length_readAmount_le _
    _ ≤ (readKey cs).2.length := (List.dropWhile_sublist _).length_le
    _ ≤ cs.length := length_readKey_le cs

/-! ## Arguments -/

/-- Arguments that are left; a mapping gives them by name. -/
structure Arguments where
  left : List Json
  mapping : Option Fields

/-- A single object that is not empty gives its fields by name. -/
def Arguments.ofList (args : List Json) : Arguments :=
  match args with
  | [.obj (f :: fs)] => ⟨args, some (f :: fs)⟩
  | args => ⟨args, none⟩

def next (a : Arguments) : Except Fault (Json × Arguments) :=
  match a.left with
  | [] => .error (.format "not enough arguments for format string")
  | v :: rest => .ok (v, { a with left := rest })

/-- Makes the argument under a key the only one. -/
def select (a : Arguments) (key : Key) : Except Fault Arguments :=
  match key, a.mapping with
  | .none, _ => .ok a
  | _, none => .error (.format "format requires a mapping")
  | .unclosed, some _ => .error (.formatValue "incomplete format key")
  | .named name, some fields =>
    match fields.get? name with
    | some v => .ok { a with left := [v] }
    | none => .error (.foreign .key [.str name])

/-- How large a width or a precision may be, and how messages speak of it. -/
structure Bound where
  limit : Int
  name : String
  word : String

def widthBound : Bound := ⟨9223372036854775807, "width", "ssize_t"⟩

def precisionBound : Bound := ⟨2147483647, "precision", "int"⟩

/-- The value of a width or precision. -/
def amount (bound : Bound) (a : Arguments) :
    Option Amount → Except Fault (Option Int × Arguments)
  | none => .ok (none, a)
  | some (.written n) =>
    if bound.limit < n then .error (.formatValue (bound.name ++ " too big")) else .ok (some n, a)
  | some .given => do
    match ← next a with
    | (.int i, a) =>
      if -bound.limit - 1 ≤ i ∧ i ≤ bound.limit then return (some i, a)
      else
        throw (.foreign .overflow
          [.str ("Python int too large to convert to C " ++ bound.word)])
    | (.bool b, a) => return (some (if b then 1 else 0), a)
    | _ => throw (.format "* wants int")

/-! ## Conversions -/

/-- A directive with its numbers settled. -/
structure Layout where
  flags : Flags
  width : Nat
  precision : Option Nat
  conversion : Char

/-- The number of a value that has one. -/
def realOf (v : Json) : Except Fault Binary64 :=
  match v with
  | .float x => .ok x
  | .bool b => .ok (Binary64.ofInt (if b then 1 else 0))
  | .int i =>
    match Binary64.ofInt i with
    | .infinite _ => .error (.foreign .overflow [.str "int too large to convert to float"])
    | x => .ok x
  | v => .error (.format ("must be real number, not " ++ v.kind.label))

/-- The integer that a conversion in base ten takes: numbers lose their fraction. -/
def integerOf (conversion : Char) (v : Json) : Except Fault Int :=
  match v with
  | .int i => .ok i
  | .bool b => .ok (if b then 1 else 0)
  | .float x => intOfFloat x
  | v =>
    .error (.format ("%" ++ conversion.toString ++ " format: a real number is required, not " ++
      v.kind.label))

/-- The integer that a conversion in base eight or sixteen takes. -/
def wordOf (conversion : Char) (v : Json) : Except Fault Int :=
  match v with
  | .int i => .ok i
  | .bool b => .ok (if b then 1 else 0)
  | v =>
    .error (.format ("%" ++ conversion.toString ++ " format: an integer is required, not " ++
      v.kind.label))

/-- The digits of a number with at least `precision` of them, a base mark and a sign in front. -/
def signedDigits (negative : Bool) (mark : String) (precision : Nat) (digits : List Char) :
    String :=
  (if negative then "-" else "") ++ mark ++
    String.ofList (List.replicate (precision - digits.length) '0' ++ digits)

def upperAscii (s : String) : String :=
  String.ofList (s.toList.map Char.toUpper)

/-- A number in the layout of `e`, `f` or `g`, with six places unless told otherwise. -/
def realText (l : Layout) (x : Binary64) : String :=
  let places := l.precision.getD 6
  let body (n d : Nat) : String :=
    match l.conversion.toLower with
    | 'f' => Places.fixed l.flags.marked places n d
    | 'e' => Places.scientific l.flags.marked places n d
    | _ => Places.compact l.flags.marked places n d
  let text :=
    match x with
    | .finite negative m e _ =>
      let (n, d) := scaleTwo m e
      (if negative then "-" else "") ++ body n d
    | x => x.text
  if l.conversion.isUpper then upperAscii text else text

def octalDigits (n : Nat) : List Char :=
  Nat.toDigits 8 n

/-- A character given as a text of one or by its number. -/
def characterText (v : Json) : Except Fault String :=
  let ofInt (i : Int) : Except Fault String :=
    if 0 ≤ i ∧ i < 0x110000 then .ok (Char.ofNat i.toNat).toString
    else .error (.foreign .overflow [.str "%c arg not in range(0x110000)"])
  match v with
  | .str s => if s.length = 1 then .ok s else .error (.format "%c requires int or char")
  | .int i => ofInt i
  | .bool b => ofInt (if b then 1 else 0)
  | _ => .error (.format "%c requires int or char")

/-- A quoted text with only ASCII in it. -/
def asciiOnly (s : String) : String :=
  String.join (s.toList.map fun c =>
    if c.toNat < 128 then c.toString
    else if c.toNat < 0x100 then "\\x" ++ Text.hexText 2 c.toNat
    else if c.toNat < 0x10000 then "\\u" ++ Text.hexText 4 c.toNat
    else "\\U" ++ Text.hexText 8 c.toNat)

def cut (precision : Option Nat) (s : String) : String :=
  match precision with
  | some n => Text.firstChars n s
  | none => s

/-- The text of a value before it is padded, and whether it may carry a sign. -/
def convert (l : Layout) (index : Nat) (v : Json) : Except Fault (String × Bool) :=
  let precision := l.precision.getD 0
  match l.conversion with
  | 's' => .ok (cut l.precision v.display, false)
  | 'r' => .ok (cut l.precision v.shown, false)
  | 'a' => .ok (cut l.precision (asciiOnly v.shown), false)
  | 'd' | 'i' | 'u' => do
    let i ← integerOf l.conversion v
    return (signedDigits (i < 0) "" precision (Text.natText i.natAbs).toList, true)
  | 'o' => do
    let i ← wordOf 'o' v
    return (signedDigits (i < 0) (if l.flags.marked then "0o" else "") precision
      (octalDigits i.natAbs), true)
  | 'x' => do
    let i ← wordOf 'x' v
    return (signedDigits (i < 0) (if l.flags.marked then "0x" else "") precision
      (Text.hexText 1 i.natAbs).toList, true)
  | 'X' => do
    let i ← wordOf 'X' v
    return (signedDigits (i < 0) (if l.flags.marked then "0X" else "") precision
      ((Text.hexText 1 i.natAbs).toList.map Char.toUpper), true)
  | 'e' | 'E' | 'f' | 'F' | 'g' | 'G' => do
    return (realText l (← realOf v), true)
  | 'c' => do return (← characterText v, false)
  | c =>
    let shownChar := if 31 ≤ c.toNat && c.toNat < 126 then c.toString else "?"
    .error (.formatValue ("unsupported format character '" ++ shownChar ++ "' (0x" ++
      Text.hexText 1 c.toNat ++ ") at index " ++ Text.natText index))

/-- Splits the sign off the text of a number; a flag may ask for one where there is none. -/
def splitSign (flags : Flags) : List Char → List Char × List Char
  | c :: cs =>
    if c == '-' || c == '+' then ([c], cs)
    else if flags.plus then (['+'], c :: cs)
    else if flags.blank then ([' '], c :: cs)
    else ([], c :: cs)
  | [] => ([], [])

/-- Pads a text to the width: to the left of it, or to the right, or with zeros after sign and base
mark. -/
def pad (l : Layout) (signed : Bool) (s : String) : String :=
  let (sign, rest) := if signed then splitSign l.flags s.toList else ([], s.toList)
  let hasMark := l.flags.marked && (l.conversion == 'x' || l.conversion == 'X' || l.conversion == 'o')
  let (mark, digits) := if hasMark then (rest.take 2, rest.drop 2) else ([], rest)
  let missing := l.width - (sign.length + mark.length + digits.length)
  let blanks := List.replicate missing ' '
  String.ofList <|
    if l.flags.left then sign ++ mark ++ digits ++ blanks
    else if signed && l.flags.zero then sign ++ mark ++ List.replicate missing '0' ++ digits
    else blanks ++ sign ++ mark ++ digits

/-! ## Filling in -/

/-- The text of one directive whose conversion stands at `index`, and the arguments left. -/
def fillOne (d : Directive) (index : Nat) (a : Arguments) : Except Fault (String × Arguments) := do
  let a ← select a d.key
  let (width, a) ← amount widthBound a d.width
  let (precision, a) ← amount precisionBound a d.precision
  match d.conversion with
  | none => throw (.formatValue "incomplete format")
  | some c =>
    let (v, a) ← next a
    let width := width.getD 0
    let l : Layout :=
      { flags := { d.flags with left := d.flags.left || width < 0 }
        width := width.natAbs
        precision := precision.map Int.toNat
        conversion := c }
    let (s, signed) ← convert l index v
    return (pad l signed s, a)

/-- Fills in a template from the character at `position` on. -/
def fillFrom (position : Nat) (a : Arguments) (cs : List Char) : Except Fault String :=
  match cs with
  | [] =>
    if !a.left.isEmpty && a.mapping.isNone then
      .error (.format "not all arguments converted during string formatting")
    else .ok ""
  | '%' :: '%' :: cs =>
    match fillFrom (position + 2) a cs with
    | .error f => .error f
    | .ok tail => .ok ("%" ++ tail)
  | c :: cs =>
    if c == '%' then
      match h : readDirective cs with
      | (d, rest) =>
        have : rest.length < cs.length + 1 := by
          have behind := length_readDirective_le cs
          rw [h] at behind
          exact Nat.lt_succ_of_le behind
        let after := position + 1 + (cs.length - rest.length)
        match fillOne d (after - 1) a with
        | .error f => .error f
        | .ok (s, a) =>
          match fillFrom after a rest with
          | .error f => .error f
          | .ok tail => .ok (s ++ tail)
    else
      match fillFrom (position + 1) a cs with
      | .error f => .error f
      | .ok tail => .ok (c.toString ++ tail)
termination_by cs.length

/-- A template with its arguments filled in; without arguments it stands for itself. -/
def fill (template : String) (args : List Json) : Except Fault String :=
  if args.isEmpty then .ok template
  else fillFrom 0 (Arguments.ofList args) template.toList

end LintHub.Template
