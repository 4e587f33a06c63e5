import LintHub.Text.Utf8

/-! # SHA-1

The digest of a text is taken over its bytes and written in forty hexadecimal digits.
-/

namespace LintHub.Sha1

/-- Five words of chaining state. -/
structure State where
  a : UInt32
  b : UInt32
  c : UInt32
  d : UInt32
  e : UInt32
  deriving DecidableEq, Repr

def initial : State :=
  ⟨0x67452301, 0xefcdab89, 0x98badcfe, 0x10325476, 0xc3d2e1f0⟩

def rotate (n : UInt32) (x : UInt32) : UInt32 :=
  (x <<< n) ||| (x >>> (32 - n))

/-- The round function and constant of round `t`. -/
def mix (t : Nat) (b c d : UInt32) : UInt32 × UInt32 :=
  if t < 20 then ((b &&& c) ||| (~~~b &&& d), 0x5a827999)
  else if t < 40 then (b ^^^ c ^^^ d, 0x6ed9eba1)
  else if t < 60 then ((b &&& c) ||| (b &&& d) ||| (c &&& d), 0x8f1bbcdc)
  else (b ^^^ c ^^^ d, 0xca62c1d6)

def round (s : State) (t : Nat) (w : UInt32) : State :=
  let (f, k) := mix t s.b s.c s.d
  ⟨rotate 5 s.a + f + s.e + k + w, s.a, rotate 30 s.b, s.c, s.d⟩

/-- A big-endian word. -/
def word (bs : List UInt8) : UInt32 :=
  bs.foldl (fun n b => n * 256 + b.toUInt32) 0

/-- Splits into groups of `n`. -/
def groups (n : Nat) (bs : List UInt8) : (count : Nat) → List (List UInt8)
  | 0 => []
  | count + 1 => bs.take n :: groups n (bs.drop n) count

/-- The eighty words of a block of sixteen. -/
def schedule (block : List UInt32) : List UInt32 :=
  ((List.range 64).foldl (fun (ws : Array UInt32) _ =>
    let at' (k : Nat) : UInt32 := ws.getD (ws.size - k) 0
    ws.push (rotate 1 (at' 3 ^^^ at' 8 ^^^ at' 14 ^^^ at' 16))) block.toArray).toList

def compress (s : State) (block : List UInt8) : State :=
  let ws := schedule ((groups 4 block 16).map word)
  let (r, _) := ws.foldl (fun (p : State × Nat) w => (round p.1 p.2 w, p.2 + 1)) (s, 0)
  ⟨s.a + r.a, s.b + r.b, s.c + r.c, s.d + r.d, s.e + r.e⟩

/-- The bytes of `n` in eight places, highest first. -/
def lengthBytes (n : Nat) : List UInt8 :=
  ((List.range 8).map fun k => UInt8.ofNat (n / Nat.pow 256 (7 - k)))

/-- A message with its end marked and its length in bits appended, in whole blocks. -/
def pad (bs : List UInt8) : List UInt8 :=
  let zeros := (119 - bs.length % 64) % 64
  bs ++ [0x80] ++ List.replicate zeros 0 ++ lengthBytes (8 * bs.length)

def digest (bs : List UInt8) : State :=
  let padded := pad bs
  (groups 64 padded (padded.length / 64)).foldl compress initial

def State.hex (s : State) : String :=
  String.join ([s.a, s.b, s.c, s.d, s.e].map fun w => Text.hexText 8 w.toNat)

def hexOfText (s : String) : String :=
  (digest (Text.encodeUtf8 s)).hex

end LintHub.Sha1
