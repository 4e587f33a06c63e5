import LintHub.Shell.Machine

/-! # Printing in scripts

`echo` prints its arguments with blanks between them; `printf` prints a format, again and again while
arguments are left. Both know escapes.
-/

namespace LintHub.Shell

/-- The value of up to `count` octal digits, and the rest. -/
def octal (count value : Nat) : List Char → Nat × List Char
  | c :: cs =>
    match count with
    | 0 => (value, c :: cs)
    | n + 1 =>
      if '0' ≤ c && c ≤ '7' then octal n (8 * value + (c.toNat - '0'.toNat)) cs
      else (value, c :: cs)
  | [] => (value, [])

def plainEscapes : List (Char × Nat) :=
  [('a', 7), ('b', 8), ('f', 12), ('n', 10), ('r', 13), ('t', 9), ('v', 11), ('\\', 92)]

/-- What an escape stands for, and the rest; none for the escape that ends all printing. -/
def escape (leadingZero : Bool) : List Char → Option (List UInt8 × List Char)
  | 'c' :: cs => if leadingZero then none else some (Text.encodeUtf8 "\\c", cs)
  | c :: cs =>
    match plainEscapes.lookup c with
    | some n => some ([UInt8.ofNat n], cs)
    | none =>
      if leadingZero && c == '0' then
        let (n, rest) := octal 3 0 cs
        some ([UInt8.ofNat n], rest)
      else if '0' ≤ c && c ≤ '7' && !leadingZero then
        let (n, rest) := octal 3 0 (c :: cs)
        some ([UInt8.ofNat n], rest)
      else some (Text.encodeUtf8 (String.ofList ['\\', c]), cs)
  | [] => some (Text.encodeUtf8 "\\", [])

/-- Text with its escapes resolved, and whether printing goes on after it. -/
def unescape (fuel : Nat) (cs : List Char) : List UInt8 × Bool :=
  match fuel with
  | 0 => ([], true)
  | fuel + 1 =>
    match cs with
    | [] => ([], true)
    | '\\' :: cs =>
      match escape true cs with
      | none => ([], false)
      | some (bytes, rest) =>
        let (more, goesOn) := unescape fuel rest
        (bytes ++ more, goesOn)
    | c :: cs =>
      let (more, goesOn) := unescape fuel cs
      (Text.encodeUtf8 c.toString ++ more, goesOn)

def echo (arguments : List String) : Step Int := do
  let plain := arguments.head? == some "-n"
  let s := String.intercalate " " (if plain then arguments.drop 1 else arguments)
  let (bytes, goesOn) := unescape (s.length + 1) s.toList
  printBytes 1 (if plain || !goesOn then bytes else bytes ++ [10])
  return 0

/-! ## Formats -/

/-- How a value is set: to the left, with zeros, how wide, and how much of it. -/
structure Layout where
  left : Bool
  zeros : Bool
  plus : Bool
  width : Nat
  precision : Option Nat
  deriving Repr

def readLayout (cs : List Char) : Layout × List Char :=
  let flags := cs.takeWhile fun c => ['-', '0', '+', ' ', '#'].contains c
  let cs := cs.drop flags.length
  let number (cs : List Char) : Nat × List Char :=
    let ds := cs.takeWhile Char.isDigit
    (((String.ofList ds).toNat?).getD 0, cs.drop ds.length)
  let (width, cs) := number cs
  let (precision, cs) :=
    match cs with
    | '.' :: cs => let (n, cs) := number cs; (some n, cs)
    | cs => (none, cs)
  (⟨flags.contains '-', flags.contains '0', flags.contains '+', width, precision⟩, cs)

def setText (l : Layout) (bytes : List UInt8) : List UInt8 :=
  let bytes :=
    match l.precision with
    | some n => bytes.take n
    | none => bytes
  let blanks := List.replicate (l.width - bytes.length) (32 : UInt8)
  if l.left then bytes ++ blanks else blanks ++ bytes

/-- The integer that an argument writes; the second part is whether it is one. -/
def integerOf (s : String) : Int × Bool :=
  let cs := s.toList.dropWhile fun c => c == ' ' || c == '\t' || c == '\n'
  match cs with
  | [] => (0, s.isEmpty)
  | '"' :: c :: _ | '\'' :: c :: _ => (c.toNat, true)
  | cs =>
    let negative := cs.head? == some '-'
    let digits := if negative || cs.head? == some '+' then cs.drop 1 else cs
    let ds := digits.takeWhile Char.isDigit
    let n : Int := ((String.ofList ds).toNat?).getD 0
    (if negative then -n else n, !ds.isEmpty && ds.length = digits.length)

def setInteger (l : Layout) (i : Int) : List UInt8 :=
  let digits := Text.paddedNat (l.precision.getD 1) i.natAbs
  let sign := if i < 0 then "-" else if l.plus then "+" else ""
  let padded :=
    if l.zeros && !l.left && l.precision.isNone then
      String.ofList (List.replicate (l.width - digits.length - sign.length) '0') ++ digits
    else digits
  setText { l with precision := none } (Text.encodeUtf8 (sign ++ padded))

/-- The digits of a number to a base. -/
def digitsTo (base n : Nat) : String :=
  String.ofList (Nat.toDigits base n)

/-- Two to the power of 64. -/
def doubleWord : Int := 18446744073709551616

/-- What one pass over a format prints, the arguments that are left, whether one was used, whether all
were good, and whether printing goes on. -/
structure Pass where
  bytes : List UInt8
  left : List String
  used : Bool
  bad : List String
  goesOn : Bool

def formatPass (fuel : Nat) (p : Pass) (cs : List Char) : Pass :=
  match fuel with
  | 0 => p
  | fuel + 1 =>
    let print (bytes : List UInt8) (rest : List Char) : Pass :=
      formatPass fuel { p with bytes := p.bytes ++ bytes } rest
    match cs with
    | [] => p
    | '\\' :: cs =>
      match escape false cs with
      | some (bytes, rest) => print bytes rest
      | none => { p with goesOn := false }
    | '%' :: '%' :: cs => print [37] cs
    | '%' :: cs =>
      let (l, cs) := readLayout cs
      let argument := p.left.headD ""
      let next (bytes : List UInt8) (good : Bool) (rest : List Char) : Pass :=
        formatPass fuel
          { p with
            bytes := p.bytes ++ bytes, left := p.left.drop 1, used := true
            bad := if good then p.bad else p.bad ++ [argument] } rest
      let (n, good) := integerOf argument
      match cs with
      | 's' :: cs => next (setText l (Text.encodeUtf8 argument)) true cs
      | 'b' :: cs =>
        let (bytes, goesOn) := unescape (argument.length + 1) argument.toList
        if goesOn then next (setText l bytes) true cs
        else { p with bytes := p.bytes ++ bytes, goesOn := false }
      | 'c' :: cs => next (setText l ((Text.encodeUtf8 argument).take 1)) true cs
      | 'd' :: cs | 'i' :: cs => next (setInteger l n) good cs
      | 'u' :: cs => next (setInteger l (n % doubleWord)) good cs
      | 'o' :: cs =>
        next (setText { l with precision := none }
          (Text.encodeUtf8 (digitsTo 8 (n % doubleWord).toNat))) good cs
      | 'x' :: cs =>
        next (setText { l with precision := none }
          (Text.encodeUtf8 (digitsTo 16 (n % doubleWord).toNat))) good cs
      | 'X' :: cs =>
        next (setText { l with precision := none }
          (Text.encodeUtf8 ((digitsTo 16 (n % doubleWord).toNat).map Char.toUpper))) good cs
      | c :: cs => print (Text.encodeUtf8 (String.ofList ['%', c])) cs
      | [] => { p with bytes := p.bytes ++ [37] }
    | c :: cs => print (Text.encodeUtf8 c.toString) cs

/-- Passes over a format until no argument is left. -/
def formatAll (fuel : Nat) (format : List Char) (p : Pass) : Pass :=
  match fuel with
  | 0 => p
  | fuel + 1 =>
    let p := formatPass (format.length + 1) { p with used := false } format
    if p.used && p.goesOn && !p.left.isEmpty then formatAll fuel format p else p

def printf (arguments : List String) : Step Int := do
  match arguments with
  | [] =>
    complain "printf: usage: printf format [arg ...]"
    return 2
  | format :: rest =>
    let p := formatAll (rest.length + 1) format.toList ⟨[], rest, false, [], true⟩
    p.bad.forM fun s => complain s!"printf: {s}: expected numeric value"
    printBytes 1 p.bytes
    return if p.bad.isEmpty then 0 else 1

end LintHub.Shell
