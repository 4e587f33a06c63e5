import LintHub.Text.Digit

/-! # UTF-8

Reading refuses the first malformed sequence and says where it stands and what is wrong with it.
-/

namespace LintHub.Text

inductive Utf8Defect where
  | invalidStart
  | invalidContinuation
  | unexpectedEnd
  deriving DecidableEq, Repr

def Utf8Defect.text : Utf8Defect → String
  | invalidStart => "invalid start byte"
  | invalidContinuation => "invalid continuation byte"
  | unexpectedEnd => "unexpected end of data"

/-- Where reading stopped: `bytes` are the ones that belong to the malformed sequence. -/
structure Utf8Error where
  position : Nat
  bytes : List UInt8
  defect : Utf8Defect
  deriving DecidableEq, Repr

def Utf8Error.message (e : Utf8Error) : String :=
  let place :=
    match e.bytes with
    | [b] => s!"byte 0x{hexText 2 b.toNat} in position {e.position}"
    | bs => s!"bytes in position {e.position}-{e.position + bs.length - 1}"
  s!"'utf-8' codec can't decode {place}: {e.defect.text}"

/-- How many continuation bytes follow a first byte, and the range of the first of them. -/
def leadByte? (b : UInt8) : Option (Nat × Nat × Nat) :=
  let n := b.toNat
  if 0xc2 ≤ n && n ≤ 0xdf then some (1, 0x80, 0xbf)
  else if n == 0xe0 then some (2, 0xa0, 0xbf)
  else if n == 0xed then some (2, 0x80, 0x9f)
  else if 0xe1 ≤ n && n ≤ 0xef then some (2, 0x80, 0xbf)
  else if n == 0xf0 then some (3, 0x90, 0xbf)
  else if n == 0xf4 then some (3, 0x80, 0x8f)
  else if 0xf1 ≤ n && n ≤ 0xf3 then some (3, 0x80, 0xbf)
  else none

/-- The part of a character that its first byte holds. -/
def leadBits (count : Nat) (b : UInt8) : Nat :=
  match count with
  | 1 => b.toNat % 32
  | 2 => b.toNat % 16
  | _ => b.toNat % 8

/-- Takes up to `count` continuation bytes, the first one between `lo` and `hi`: the bits so far, the
bytes taken (last first), the rest, and the defect that stopped it, if one did. -/
def continuation (count lo hi bits : Nat) (taken : List UInt8) (bs : List UInt8) :
    Nat × List UInt8 × List UInt8 × Option Utf8Defect :=
  match count, bs with
  | 0, bs => (bits, taken, bs, none)
  | _ + 1, [] => (bits, taken, [], some .unexpectedEnd)
  | n + 1, b :: bs =>
    if lo ≤ b.toNat && b.toNat ≤ hi then
      continuation n 0x80 0xbf (bits * 64 + b.toNat % 64) (b :: taken) bs
    else (bits, taken, b :: bs, some .invalidContinuation)

theorem continuation_rest_le (count lo hi bits : Nat) (taken bs : List UInt8) :
    (continuation count lo hi bits taken bs).2.2.1.length ≤ bs.length := by
  induction count generalizing lo hi bits taken bs with
  | zero => simp [continuation]
  | succ n ih =>
    cases bs with
    | nil => simp [continuation]
    | cons b bs =>
      simp only [continuation]
      split
      · exact Nat.le_succ_of_le (ih ..)
      · simp

/-- The characters of bytes that start at `position`. -/
def decodeFrom (position : Nat) (bs : List UInt8) : Except Utf8Error (List Char) :=
  match bs with
  | [] => .ok []
  | b :: rest =>
    if b.toNat < 0x80 then
      match decodeFrom (position + 1) rest with
      | .ok cs => .ok (Char.ofNat b.toNat :: cs)
      | .error e => .error e
    else
      match leadByte? b with
      | none => .error ⟨position, [b], .invalidStart⟩
      | some (count, lo, hi) =>
        match h : continuation count lo hi (leadBits count b) [b] rest with
        | (_, taken, _, some defect) => .error ⟨position, taken.reverse, defect⟩
        | (bits, _, after, none) =>
          have : after.length ≤ rest.length := by
            have := continuation_rest_le count lo hi (leadBits count b) [b] rest
            rw [h] at this
            exact this
          match decodeFrom (position + count + 1) after with
          | .ok cs => .ok (Char.ofNat bits :: cs)
          | .error e => .error e
termination_by bs.length

def decodeUtf8 (bs : List UInt8) : Except Utf8Error String :=
  (decodeFrom 0 bs).map String.ofList

def encodeUtf8 (s : String) : List UInt8 :=
  s.toUTF8.toList

end LintHub.Text
