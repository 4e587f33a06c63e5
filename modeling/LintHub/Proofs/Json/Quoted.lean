import LintHub.Json.Reader
import LintHub.Json.Writer
import LintHub.Proofs.Text.Numerals

/-! # Text in quotes

Every text that is written in quotes is read back as it was, and what is written holds printable
ASCII characters only. Each character is read on its own, whichever of the forms it is written in.
-/

namespace LintHub.Json

open Text

/-- A character from space to tilde. -/
def IsPrintable (c : Char) : Prop :=
  32 ≤ c.toNat ∧ c.toNat < 127

instance (c : Char) : Decidable (IsPrintable c) := by
  unfold IsPrintable; infer_instance

/-- The forms in which a character is written. -/
inductive Written (c : Char) : List Char → Prop where
  | letter {e : Char} (printed : IsPrintable e) (escape : simpleEscape? e = some c) :
    Written c ['\\', e]
  | plain (quote : c ≠ '"') (slash : c ≠ '\\') (printed : IsPrintable c) : Written c [c]
  | code (small : c.toNat < 0x10000) : Written c (escapeCode c.toNat)
  | halves (large : ¬ c.toNat < 0x10000) :
    Written c (escapeCode (0xd800 + (c.toNat - 0x10000) / 0x400) ++
      escapeCode (0xdc00 + (c.toNat - 0x10000) % 0x400))

theorem written_escapeChar (c : Char) : Written c (escapeChar c) := by
  have control {n : Nat} (h : (c.toNat == n) = true) : c = Char.ofNat n := by
    rw [← beq_iff_eq.mp h, Char.ofNat_toNat]
  unfold escapeChar
  by_cases quote : (c == '"') = true
  · rw [if_pos quote, beq_iff_eq.mp quote]
    exact .letter (by decide) rfl
  rw [if_neg quote]
  by_cases slash : (c == '\\') = true
  · rw [if_pos slash, beq_iff_eq.mp slash]
    exact .letter (by decide) rfl
  rw [if_neg slash]
  by_cases newline : (c == '\n') = true
  · rw [if_pos newline, beq_iff_eq.mp newline]
    exact .letter (by decide) rfl
  rw [if_neg newline]
  by_cases return' : (c == '\r') = true
  · rw [if_pos return', beq_iff_eq.mp return']
    exact .letter (by decide) rfl
  rw [if_neg return']
  by_cases tab : (c == '\t') = true
  · rw [if_pos tab, beq_iff_eq.mp tab]
    exact .letter (by decide) rfl
  rw [if_neg tab]
  by_cases back : (c.toNat == 8) = true
  · rw [if_pos back, control back]
    exact .letter (by decide) rfl
  rw [if_neg back]
  by_cases feed : (c.toNat == 12) = true
  · rw [if_pos feed, control feed]
    exact .letter (by decide) rfl
  rw [if_neg feed]
  by_cases printed : IsPrintable c
  · rw [if_pos (by simpa [IsPrintable] using printed)]
    exact .plain (by simpa using quote) (by simpa using slash) printed
  rw [if_neg (by simpa [IsPrintable] using printed)]
  by_cases small : c.toNat < 0x10000
  · rw [if_pos small]
    exact .code small
  · rw [if_neg small]
    exact .halves small

/-! ## Reading one form -/

theorem hexValue?_digitChar : ∀ d < 16, hexValue? d.digitChar = some d := by decide

theorem escapeCode_append {n : Nat} (h : n < 65536) (tail : List Char) :
    ∃ quad, escapeCode n ++ tail = '\\' :: 'u' :: (quad ++ tail) ∧ quad.length = 4 ∧
      hexQuad? quad = some n := by
  refine ⟨_, by rw [escapeCode]; rfl, ?_, ?_⟩
  · rw [hexText_four h]
    rfl
  · have a := hexValue?_digitChar (n / 16 / 16 / 16) (by omega)
    have b := hexValue?_digitChar (n / 16 / 16 % 16) (by omega)
    have c := hexValue?_digitChar (n / 16 % 16) (by omega)
    have d := hexValue?_digitChar (n % 16) (by omega)
    rw [hexText_four h, hexQuad?, a, b, c, d]
    show some _ = some n
    congr 1
    omega

section
variable {start offset : Nat} {done tail : List Char}

theorem readText_letter {c d : Char} (escape : simpleEscape? c = some d) :
    readText start offset done ('\\' :: c :: tail) =
      readText start (offset + 2) (d :: done) tail := by
  rw [readText]
  · rw [escape]
  · rintro rfl
    cases escape

theorem readText_plain {c : Char} (quote : c ≠ '"') (slash : c ≠ '\\') (printed : 32 ≤ c.toNat) :
    readText start offset done (c :: tail) = readText start (offset + 1) (c :: done) tail := by
  rw [readText, if_neg (by omega)]
  · exact fun h => quote h
  · exact fun h => (slash h).elim
  · exact fun _ h => (slash h).elim
  · exact fun _ _ h => (slash h).elim

/-- The number of a character is no half. -/
theorem isHighHalf_toNat (c : Char) : isHighHalf c.toNat = false := by
  have valid := c.valid
  simp only [UInt32.isValidChar, Nat.isValidChar] at valid
  simp only [isHighHalf, Bool.and_eq_false_iff, decide_eq_false_iff_not, Char.toNat]
  omega

theorem isLowHalf_toNat (c : Char) : isLowHalf c.toNat = false := by
  have valid := c.valid
  simp only [UInt32.isValidChar, Nat.isValidChar] at valid
  simp only [isLowHalf, Bool.and_eq_false_iff, decide_eq_false_iff_not, Char.toNat]
  omega

theorem readText_code {c : Char} (small : c.toNat < 65536) (more : tail ≠ []) :
    readText start offset done (escapeCode c.toNat ++ tail) =
      readText start (offset + 6) (c :: done) tail := by
  obtain ⟨quad, eq, four, reads⟩ := escapeCode_append small tail
  have long := List.length_pos_iff.mpr more
  have self : charOfCode c.toNat = c := by
    rw [charOfCode, isHighHalf_toNat, isLowHalf_toNat]
    exact Char.ofNat_toNat c
  rw [eq, readText, if_neg (by rw [List.length_append]; omega), List.take_left' four, reads,
    List.drop_left' four]
  dsimp only
  rw [isHighHalf_toNat, self]
  rfl

/-- Two halves that are written one after the other are read as one character. -/
theorem readText_halves {high low : Nat} (hh : isHighHalf high = true) (hl : isLowHalf low = true)
    (more : tail ≠ []) :
    readText start offset done (escapeCode high ++ (escapeCode low ++ tail)) =
      readText start (offset + 12) (joinHalves high low :: done) tail := by
  have bounds : high < 65536 ∧ low < 65536 := by
    simp only [isHighHalf, isLowHalf, Bool.and_eq_true, decide_eq_true_eq] at hh hl
    omega
  obtain ⟨second, eq', four', reads'⟩ := escapeCode_append bounds.2 tail
  obtain ⟨first, eq, four, reads⟩ := escapeCode_append bounds.1 (escapeCode low ++ tail)
  have long := List.length_pos_iff.mpr more
  have ten : (first ++ '\\' :: 'u' :: second).length = 10 := by
    simp only [List.length_append, List.length_cons, four, four']
  have whole : first ++ '\\' :: 'u' :: (second ++ tail) =
      (first ++ '\\' :: 'u' :: second) ++ tail := by simp
  rw [eq, eq', readText,
    if_neg (by simp only [List.length_append, List.length_cons]; omega), List.take_left' four, reads,
    List.drop_left' four]
  dsimp only
  have enough : 6 < ('\\' :: 'u' :: (second ++ tail)).length := by
    simp only [List.length_cons, List.length_append]
    omega
  rw [hh, decide_eq_true enough, whole, List.drop_left' ten, List.drop_succ_cons, List.drop_succ_cons,
    List.drop_zero, List.take_left' four', reads']
  dsimp only
  rw [hl]
  rfl

theorem joinHalves_toNat {c : Char} (large : ¬ c.toNat < 65536) :
    isHighHalf (0xd800 + (c.toNat - 0x10000) / 0x400) = true ∧
      isLowHalf (0xdc00 + (c.toNat - 0x10000) % 0x400) = true ∧
      joinHalves (0xd800 + (c.toNat - 0x10000) / 0x400)
        (0xdc00 + (c.toNat - 0x10000) % 0x400) = c := by
  have top : c.toNat < 0x110000 := by
    have valid := c.valid
    simp only [UInt32.isValidChar, Nat.isValidChar] at valid
    simp only [Char.toNat]
    omega
  refine ⟨?_, ?_, ?_⟩
  · simp only [isHighHalf, Bool.and_eq_true, decide_eq_true_eq]
    omega
  · simp only [isLowHalf, Bool.and_eq_true, decide_eq_true_eq]
    omega
  · have sum : 0x10000 + (0xd800 + (c.toNat - 0x10000) / 0x400 - 0xd800) * 0x400 +
        (0xdc00 + (c.toNat - 0x10000) % 0x400 - 0xdc00) = c.toNat := by omega
    rw [joinHalves, sum, Char.ofNat_toNat]

/-- One character is read from the form that it is written in. -/
theorem readText_escapeChar (start offset : Nat) (done : List Char) (c : Char) (more : tail ≠ []) :
    ∃ offset', readText start offset done (escapeChar c ++ tail) =
      readText start offset' (c :: done) tail := by
  generalize form : escapeChar c = cs
  have written : Written c cs := form ▸ written_escapeChar c
  cases written with
  | letter _ escape => exact ⟨_, readText_letter escape⟩
  | plain quote slash printed => exact ⟨_, readText_plain quote slash printed.1⟩
  | code small => exact ⟨_, readText_code small more⟩
  | halves large =>
    obtain ⟨high, low, join⟩ := joinHalves_toNat large
    rw [List.append_assoc, readText_halves high low more, join]
    exact ⟨_, rfl⟩

/-- By induction on the text, one character after the other up to the closing quote. -/
theorem readText_flatMap (start offset : Nat) (done cs rest : List Char) :
    ∃ offset', readText start offset done (cs.flatMap escapeChar ++ '"' :: rest) =
      .ok (done.reverse ++ cs, ⟨rest, offset'⟩) := by
  induction cs generalizing offset done with
  | nil => exact ⟨_, by rw [List.flatMap_nil, List.nil_append, readText, List.append_nil]⟩
  | cons c cs ih =>
    have more : cs.flatMap escapeChar ++ '"' :: rest ≠ [] := by simp
    obtain ⟨o, first⟩ := readText_escapeChar start offset done c more
    obtain ⟨o', others⟩ := ih o (c :: done)
    refine ⟨o', ?_⟩
    rw [List.flatMap_cons, List.append_assoc, first, others, List.reverse_cons, List.append_assoc]
    rfl

end

theorem writeText_toList (s : String) :
    (writeText s).toList = '"' :: (s.toList.flatMap escapeChar ++ ['"']) := by
  rw [writeText, String.toList_ofList]
  rfl

/-! ## Printable characters -/

theorem digitChar_isPrintable : ∀ d < 16, IsPrintable d.digitChar := by decide

theorem escapeCode_isPrintable {n : Nat} (h : n < 65536) : ∀ c ∈ escapeCode n, IsPrintable c := by
  rw [escapeCode, hexText_four h]
  simp only [List.forall_mem_cons]
  exact ⟨by decide, by decide, digitChar_isPrintable _ (by omega), digitChar_isPrintable _ (by omega),
    digitChar_isPrintable _ (by omega), digitChar_isPrintable _ (by omega), by simp⟩

theorem Written.isPrintable {c : Char} {cs : List Char} (h : Written c cs) :
    ∀ d ∈ cs, IsPrintable d := by
  cases h with
  | letter printed _ =>
    simp only [List.forall_mem_cons]
    exact ⟨by decide, printed, by simp⟩
  | plain _ _ printed => simpa using printed
  | code small => exact escapeCode_isPrintable small
  | halves large =>
    obtain ⟨high, low, -⟩ := joinHalves_toNat large
    simp only [isHighHalf, isLowHalf, Bool.and_eq_true, decide_eq_true_eq] at high low
    intro d hd
    rcases List.mem_append.mp hd with hd | hd
    · exact escapeCode_isPrintable (by omega) d hd
    · exact escapeCode_isPrintable (by omega) d hd

theorem writeText_isPrintable (s : String) : ∀ c ∈ (writeText s).toList, IsPrintable c := by
  rw [writeText_toList]
  intro c hc
  rcases List.mem_cons.mp hc with rfl | hc
  · decide
  · rcases List.mem_append.mp hc with hc | hc
    · obtain ⟨d, -, hd⟩ := List.mem_flatMap.mp hc
      exact (written_escapeChar d).isPrintable c hd
    · rw [List.mem_singleton.mp hc]
      decide

end LintHub.Json
