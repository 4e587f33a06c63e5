import LintHub.Text.Utf8

/-! # Text as bytes

Every text comes back from its UTF-8 bytes. A character takes one to four of them: a lead byte that
says how many follow, and continuation bytes of six bits each.
-/

namespace LintHub.Text

theorem byteArray_toList_loop (bs : ByteArray) (i : Nat) (done : List UInt8) :
    ByteArray.toList.loop bs i done = done.reverse ++ bs.data.toList.drop i := by
  fun_induction ByteArray.toList.loop bs i done with
  | case1 i done more ih =>
    have bound : i < bs.data.toList.length := by simpa using more
    rw [ih, List.drop_eq_getElem_cons bound]
    simp [ByteArray.get!, more]
  | case2 i done past =>
    rw [List.drop_eq_nil_of_le (by simpa using Nat.le_of_not_lt past), List.append_nil]

theorem toUTF8_data (s : String) :
    s.toUTF8.data.toList = s.toList.flatMap String.utf8EncodeChar := by
  rw [String.toUTF8_eq_toByteArray, ← String.utf8Encode_toList]
  exact List.toList_data_toByteArray

theorem encodeUtf8_eq (s : String) :
    encodeUtf8 s = s.toList.flatMap String.utf8EncodeChar := by
  rw [encodeUtf8, ByteArray.toList, byteArray_toList_loop, ← toUTF8_data]
  rfl

theorem utf8EncodeChar_ascii {c : Char} (ascii : c.toNat < 128) :
    String.utf8EncodeChar c = [UInt8.ofNat c.toNat] := by
  have low : c.val.toNat ≤ 127 := by
    have := ascii
    rw [Char.toNat] at this
    omega
  rw [String.utf8EncodeChar.eq_1, if_pos low]
  rfl

/-! ## Lead bytes and continuation bytes -/

theorem toNat_byte {n : Nat} (small : n < 256) : (UInt8.ofNat n).toNat = n := by
  rw [UInt8.toNat_ofNat']
  omega

/-- A lead byte and the range that the byte after it is in, by the bits that it holds. -/
theorem leadByte?_two {n : Nat} (low : 2 ≤ n) (high : n < 32) :
    leadByte? (UInt8.ofNat (n + 192)) = some (1, 0x80, 0xbf) := by
  have each : ∀ n < 32, 2 ≤ n → leadByte? (UInt8.ofNat (n + 192)) = some (1, 0x80, 0xbf) := by
    decide
  exact each n high low

/-- Of the characters with three bytes, small numbers are written in fewer and halves are none. -/
theorem leadByte?_three {n : Nat} (high : n < 16) :
    leadByte? (UInt8.ofNat (n + 224)) =
      some (2, if n = 0 then 0xa0 else 0x80, if n = 13 then 0x9f else 0xbf) := by
  have each : ∀ n < 16, leadByte? (UInt8.ofNat (n + 224)) =
      some (2, if n = 0 then 0xa0 else 0x80, if n = 13 then 0x9f else 0xbf) := by
    decide
  exact each n high

/-- Of those with four bytes, small numbers are written in fewer and large ones are no characters. -/
theorem leadByte?_four {n : Nat} (high : n < 5) :
    leadByte? (UInt8.ofNat (n + 240)) =
      some (3, if n = 0 then 0x90 else 0x80, if n = 4 then 0x8f else 0xbf) := by
  have each : ∀ n < 5, leadByte? (UInt8.ofNat (n + 240)) =
      some (3, if n = 0 then 0x90 else 0x80, if n = 4 then 0x8f else 0xbf) := by
    decide
  exact each n high

theorem continuation_zero (lo hi bits : Nat) (taken bs : List UInt8) :
    continuation 0 lo hi bits taken bs = (bits, taken, bs, none) := by
  rw [continuation]

/-- A continuation byte adds six bits. -/
theorem continuation_byte {count lo hi bits n : Nat} {taken bs : List UInt8} (small : n < 64)
    (low : lo ≤ n + 128) (high : n + 128 ≤ hi) :
    continuation (count + 1) lo hi bits taken (UInt8.ofNat (n + 128) :: bs) =
      continuation count 0x80 0xbf (bits * 64 + n) (UInt8.ofNat (n + 128) :: taken) bs := by
  have byte : (UInt8.ofNat (n + 128)).toNat = n + 128 := toNat_byte (by omega)
  rw [continuation, byte, if_pos (by simpa using ⟨low, high⟩)]
  congr 1
  omega

/-- What is read behind a lead byte whose continuation bytes are all there. -/
theorem decodeFrom_lead {position count lo hi bits : Nat} {b : UInt8} {taken rest after : List UInt8}
    (lead : 128 ≤ b.toNat) (kind : leadByte? b = some (count, lo, hi))
    (whole : continuation count lo hi (leadBits count b) [b] rest = (bits, taken, after, none)) :
    decodeFrom position (b :: rest) =
      (decodeFrom (position + count + 1) after).map (Char.ofNat bits :: ·) := by
  rw [decodeFrom, if_neg (by omega), kind]
  dsimp only
  split
  · next eq =>
    rw [whole] at eq
    cases eq
  · next eq =>
    rw [whole] at eq
    cases eq
    cases decodeFrom (position + count + 1) after <;> rfl

/-! ## One character -/

/-- The numbers of characters leave out those of the halves. -/
theorem toNat_valid (c : Char) : c.toNat < 0xd800 ∨ 0xdfff < c.toNat ∧ c.toNat < 0x110000 := by
  have valid := c.valid
  simp only [UInt32.isValidChar, Nat.isValidChar] at valid
  exact valid

section
variable {c : Char} (position : Nat) (rest : List UInt8)

theorem decodeFrom_two (low : 0x7f < c.toNat) (high : c.toNat ≤ 0x7ff) :
    decodeFrom position (String.utf8EncodeChar c ++ rest) =
      (decodeFrom (position + 1 + 1) rest).map (c :: ·) := by
  have bytes : String.utf8EncodeChar c =
      [UInt8.ofNat (c.toNat / 64 % 32 + 192), UInt8.ofNat (c.toNat % 64 + 128)] := by
    rw [String.utf8EncodeChar.eq_1]
    exact (if_neg (Nat.not_le.mpr low)).trans (if_pos high)
  have lead : (UInt8.ofNat (c.toNat / 64 % 32 + 192)).toNat = c.toNat / 64 % 32 + 192 :=
    toNat_byte (by omega)
  have whole : continuation 1 0x80 0xbf (leadBits 1 (UInt8.ofNat (c.toNat / 64 % 32 + 192)))
      [UInt8.ofNat (c.toNat / 64 % 32 + 192)] (UInt8.ofNat (c.toNat % 64 + 128) :: rest) =
      (c.toNat, [UInt8.ofNat (c.toNat % 64 + 128), UInt8.ofNat (c.toNat / 64 % 32 + 192)], rest,
        none) := by
    rw [continuation_byte (by omega) (by omega) (by omega), continuation_zero, leadBits, lead]
    congr 1
    omega
  rw [bytes, List.cons_append, List.singleton_append,
    decodeFrom_lead (by omega) (leadByte?_two (by omega) (by omega)) whole, Char.ofNat_toNat]

theorem decodeFrom_three (low : 0x7ff < c.toNat) (high : c.toNat ≤ 0xffff) :
    decodeFrom position (String.utf8EncodeChar c ++ rest) =
      (decodeFrom (position + 2 + 1) rest).map (c :: ·) := by
  have valid := toNat_valid c
  have bytes : String.utf8EncodeChar c =
      [UInt8.ofNat (c.toNat / 4096 % 16 + 224), UInt8.ofNat (c.toNat / 64 % 64 + 128),
        UInt8.ofNat (c.toNat % 64 + 128)] := by
    rw [String.utf8EncodeChar.eq_1]
    have more : ¬ c.toNat ≤ 127 := by omega
    exact (if_neg more).trans ((if_neg (Nat.not_le.mpr low)).trans (if_pos high))
  have lead : (UInt8.ofNat (c.toNat / 4096 % 16 + 224)).toNat = c.toNat / 4096 % 16 + 224 :=
    toNat_byte (by omega)
  have whole : continuation 2 (if c.toNat / 4096 % 16 = 0 then 0xa0 else 0x80)
      (if c.toNat / 4096 % 16 = 13 then 0x9f else 0xbf)
      (leadBits 2 (UInt8.ofNat (c.toNat / 4096 % 16 + 224)))
      [UInt8.ofNat (c.toNat / 4096 % 16 + 224)]
      (UInt8.ofNat (c.toNat / 64 % 64 + 128) :: UInt8.ofNat (c.toNat % 64 + 128) :: rest) =
      (c.toNat, [UInt8.ofNat (c.toNat % 64 + 128), UInt8.ofNat (c.toNat / 64 % 64 + 128),
        UInt8.ofNat (c.toNat / 4096 % 16 + 224)], rest, none) := by
    rw [continuation_byte (by omega) (by split <;> omega) (by split <;> omega),
      continuation_byte (by omega) (by omega) (by omega), continuation_zero, leadBits, lead]
    congr 1
    omega
  rw [bytes, List.cons_append, List.cons_append, List.singleton_append,
    decodeFrom_lead (by omega) (leadByte?_three (by omega)) whole, Char.ofNat_toNat]

theorem decodeFrom_four (low : 0xffff < c.toNat) :
    decodeFrom position (String.utf8EncodeChar c ++ rest) =
      (decodeFrom (position + 3 + 1) rest).map (c :: ·) := by
  have valid := toNat_valid c
  have bytes : String.utf8EncodeChar c =
      [UInt8.ofNat (c.toNat / 262144 % 8 + 240), UInt8.ofNat (c.toNat / 4096 % 64 + 128),
        UInt8.ofNat (c.toNat / 64 % 64 + 128), UInt8.ofNat (c.toNat % 64 + 128)] := by
    rw [String.utf8EncodeChar.eq_1]
    have more : ¬ c.toNat ≤ 127 := by omega
    have some : ¬ c.toNat ≤ 2047 := by omega
    exact (if_neg more).trans ((if_neg some).trans (if_neg (Nat.not_le.mpr low)))
  have lead : (UInt8.ofNat (c.toNat / 262144 % 8 + 240)).toNat = c.toNat / 262144 % 8 + 240 :=
    toNat_byte (by omega)
  have whole : continuation 3 (if c.toNat / 262144 % 8 = 0 then 0x90 else 0x80)
      (if c.toNat / 262144 % 8 = 4 then 0x8f else 0xbf)
      (leadBits 3 (UInt8.ofNat (c.toNat / 262144 % 8 + 240)))
      [UInt8.ofNat (c.toNat / 262144 % 8 + 240)]
      (UInt8.ofNat (c.toNat / 4096 % 64 + 128) :: UInt8.ofNat (c.toNat / 64 % 64 + 128) ::
        UInt8.ofNat (c.toNat % 64 + 128) :: rest) =
      (c.toNat, [UInt8.ofNat (c.toNat % 64 + 128), UInt8.ofNat (c.toNat / 64 % 64 + 128),
        UInt8.ofNat (c.toNat / 4096 % 64 + 128), UInt8.ofNat (c.toNat / 262144 % 8 + 240)], rest,
        none) := by
    rw [continuation_byte (by omega) (by split <;> omega) (by split <;> omega),
      continuation_byte (by omega) (by omega) (by omega),
      continuation_byte (by omega) (by omega) (by omega), continuation_zero, leadBits, lead]
    congr 1
    · omega
    · rintro ⟨⟩
    · rintro ⟨⟩
  rw [bytes, List.cons_append, List.cons_append, List.cons_append, List.singleton_append,
    decodeFrom_lead (by omega) (leadByte?_four (by omega)) whole, Char.ofNat_toNat]

theorem decodeFrom_char : ∃ position', decodeFrom position (String.utf8EncodeChar c ++ rest) =
    (decodeFrom position' rest).map (c :: ·) := by
  by_cases one : c.toNat < 128
  · refine ⟨position + 1, ?_⟩
    rw [utf8EncodeChar_ascii one, List.singleton_append, decodeFrom, toNat_byte (by omega),
      if_pos one, Char.ofNat_toNat]
    cases decodeFrom (position + 1) rest <;> rfl
  by_cases two : c.toNat ≤ 0x7ff
  · exact ⟨_, decodeFrom_two position rest (by omega) two⟩
  by_cases three : c.toNat ≤ 0xffff
  · exact ⟨_, decodeFrom_three position rest (by omega) three⟩
  · exact ⟨_, decodeFrom_four position rest (by omega)⟩

end

/-! ## Texts -/

theorem decodeFrom_encode (position : Nat) (cs : List Char) :
    decodeFrom position (cs.flatMap String.utf8EncodeChar) = .ok cs := by
  induction cs generalizing position with
  | nil => rw [List.flatMap_nil, decodeFrom]
  | cons c cs ih =>
    obtain ⟨position', first⟩ := decodeFrom_char (c := c) position (cs.flatMap String.utf8EncodeChar)
    rw [List.flatMap_cons, first, ih]
    rfl

theorem decodeUtf8_encodeUtf8 (s : String) : decodeUtf8 (encodeUtf8 s) = .ok s := by
  rw [encodeUtf8_eq, decodeUtf8, decodeFrom_encode]
  exact congrArg Except.ok String.ofList_toList

end LintHub.Text
