import LintHub.Proofs.Json.Document
import LintHub.Proofs.Json.Reading

/-! # The grammar of documents

Which texts stand for which values. In quotes a text is made of whole characters: one beyond 16 bits
may be escaped as two halves, but a half alone stands for nothing. A document without such a half
stands for what is read of it, and no document that is written has one.
-/

namespace LintHub.Json

open Text (intText)

/-! ## The grammar -/

/-- A form of a character stands in front of `rest`. -/
inductive Letter : List Char → Char → List Char → Prop where
  | plain {c : Char} {rest : List Char} (quote : c ≠ '"') (slash : c ≠ '\\')
    (printed : 32 ≤ c.toNat) : Letter (c :: rest) c rest
  | escape {e c : Char} {rest : List Char} (escape : simpleEscape? e = some c) :
    Letter ('\\' :: e :: rest) c rest
  | code {quad rest : List Char} {c : Char} (digits : hexQuad? quad = some c.toNat) :
    Letter ('\\' :: 'u' :: (quad ++ rest)) c rest
  | halves {quad quad' rest : List Char} {high low : Nat} (digits : hexQuad? quad = some high)
    (isHigh : isHighHalf high = true) (digits' : hexQuad? quad' = some low)
    (isLow : isLowHalf low = true) :
    Letter ('\\' :: 'u' :: (quad ++ '\\' :: 'u' :: (quad' ++ rest))) (joinHalves high low) rest

/-- White space stands in front of `rest`. -/
def Space (cs rest : List Char) : Prop :=
  ∃ gap, IsGap gap ∧ cs = gap ++ rest

/-- Parts with commas between them, up to the character `close`. -/
inductive Listed {α : Type} (part : List Char → α → List Char → Prop) (close : Char) :
    List Char → List α → List Char → Prop where
  | last {cs cs₁ rest : List Char} {a : α} (first : part cs a cs₁)
    (after : Space cs₁ (close :: rest)) : Listed part close cs [a] rest
  | more {cs cs₁ cs₂ cs₃ rest : List Char} {a : α} {as : List α} (first : part cs a cs₁)
    (after : Space cs₁ (',' :: cs₂)) (before : Space cs₂ cs₃)
    (others : Listed part close cs₃ as rest) : Listed part close cs (a :: as) rest

/-- A name in quotes, a colon and a value. -/
inductive Named (value : List Char → Json → List Char → Prop) :
    List Char → String × Json → List Char → Prop where
  | field {cs name cs₁ cs₂ cs₃ rest : List Char} {v : Json} (named : Quoted Letter cs name cs₁)
    (colon : Space cs₁ (':' :: cs₂)) (before : Space cs₂ cs₃) (is : value cs₃ v rest) :
    Named value ('"' :: cs) (String.ofList name, v) rest

/-- The fields of an object behind those in `done`, a later one in the place of the first with its
name. -/
def gather (done fs : Fields) : Fields :=
  fs.foldl (fun d f => setNamed d f.1 f.2) done

/-- A text that stands for a value is in front of `rest`. -/
inductive StandsFor : List Char → Json → List Char → Prop where
  | atom {cs rest : List Char} {v : Json} {o o' : Nat}
    (atom : readAtom ⟨cs, o⟩ = .ok (v, ⟨rest, o'⟩)) : StandsFor cs v rest
  | text {cs chars rest : List Char} (text : Quoted Letter cs chars rest) :
    StandsFor ('"' :: cs) (.str (String.ofList chars)) rest
  | noItems {cs rest : List Char} (space : Space cs (']' :: rest)) :
    StandsFor ('[' :: cs) (.arr []) rest
  | items {cs cs₁ rest : List Char} {vs : List Json} (space : Space cs cs₁)
    (items : Listed StandsFor ']' cs₁ vs rest) : StandsFor ('[' :: cs) (.arr vs) rest
  | noFields {cs rest : List Char} (space : Space cs ('}' :: rest)) :
    StandsFor ('{' :: cs) (.obj []) rest
  | fields {cs cs₁ rest : List Char} {fs : Fields} (space : Space cs cs₁)
    (fields : Listed (Named StandsFor) '}' cs₁ fs rest) :
    StandsFor ('{' :: cs) (.obj (gather [] fs)) rest

/-! ## Halves that stand alone -/

/-- The code that an escape in front gives. -/
def codeAhead? : List Char → Option Nat
  | '\\' :: 'u' :: cs => hexQuad? (cs.take 4)
  | _ => none

/-- Whether each half of a character that a text escapes is one of two that make a whole: a high half
has a low one right behind it, and no low half stands elsewhere. -/
def halvesPaired (cs : List Char) : Bool :=
  match cs with
  | [] => true
  | '\\' :: 'u' :: rest =>
    match hexQuad? (rest.take 4) with
    | none => halvesPaired rest
    | some code =>
      if isHighHalf code then
        (codeAhead? (rest.drop 4)).any isLowHalf && halvesPaired (rest.drop 10)
      else !isLowHalf code && halvesPaired (rest.drop 4)
  | '\\' :: _ :: rest => halvesPaired rest
  | _ :: rest => halvesPaired rest
termination_by cs.length
decreasing_by all_goals simp only [List.length_cons, List.length_drop]; omega

section paired

variable {c e : Char} {cs rest quad : List Char} {code n : Nat}

theorem halvesPaired_nil : halvesPaired [] = true := by
  rw [halvesPaired]

theorem halvesPaired_plain (slash : c ≠ '\\') : halvesPaired (c :: rest) = halvesPaired rest := by
  rw [halvesPaired]
  · exact fun _ h => (slash h).elim
  · exact fun _ _ h => (slash h).elim

theorem halvesPaired_escape (other : e ≠ 'u') :
    halvesPaired ('\\' :: e :: rest) = halvesPaired rest := by
  rw [halvesPaired]
  exact other

theorem halvesPaired_code (digits : hexQuad? (rest.take 4) = some code) :
    halvesPaired ('\\' :: 'u' :: rest) =
      if isHighHalf code then
        (codeAhead? (rest.drop 4)).any isLowHalf && halvesPaired (rest.drop 10)
      else !isLowHalf code && halvesPaired (rest.drop 4) := by
  rw [halvesPaired, digits]

theorem halvesPaired_halves {high low : Nat} (isHigh : isHighHalf high = true)
    (isLow : isLowHalf low = true) (rest : List Char) :
    halvesPaired (escapeCode high ++ escapeCode low ++ rest) = halvesPaired rest := by
  have small : high < 65536 ∧ low < 65536 := by
    simp only [isHighHalf, isLowHalf, Bool.and_eq_true, decide_eq_true_eq] at isHigh isLow
    omega
  obtain ⟨quad', eq', four', reads'⟩ := escapeCode_append small.2 rest
  obtain ⟨quad, eq, four, reads⟩ := escapeCode_append small.1 (escapeCode low ++ rest)
  have behind : codeAhead? (escapeCode low ++ rest) = some low := by
    rw [eq', codeAhead?, List.take_left' four', reads']
  have left : (quad ++ (escapeCode low ++ rest)).drop 10 = rest := by
    rw [eq', ← List.cons_append, ← List.cons_append, ← List.append_assoc]
    exact List.drop_left' (by simp [four, four'])
  rw [List.append_assoc, eq, halvesPaired_code (by rw [List.take_left' four, reads]), if_pos isHigh,
    List.drop_left' four, behind, left]
  show (isLowHalf low && _) = _
  rw [isLow, Bool.true_and]

/-- Without a backslash no half is escaped. -/
theorem halvesPaired_append (plain : '\\' ∉ cs) :
    halvesPaired (cs ++ rest) = halvesPaired rest := by
  induction cs with
  | nil => rfl
  | cons c cs ih =>
    rw [List.mem_cons, not_or] at plain
    rw [List.cons_append, halvesPaired_plain (Ne.symm plain.1), ih plain.2]

theorem halvesPaired_drop (plain : '\\' ∉ cs.take n) :
    halvesPaired (cs.drop n) = halvesPaired cs := by
  conv_rhs => rw [← List.take_append_drop n cs]
  rw [halvesPaired_append plain]

end paired

/-! ## What is read -/

/-- A code of four digits that is no half is that of a character. -/
theorem charOfCode_toNat {code : Nat} (small : code < 65536) (notHigh : isHighHalf code = false)
    (notLow : isLowHalf code = false) : (charOfCode code).toNat = code := by
  have valid : code.isValidChar := by
    simp only [isHighHalf, isLowHalf, Bool.and_eq_false_iff, decide_eq_false_iff_not] at notHigh notLow
    unfold Nat.isValidChar
    omega
  rw [charOfCode, notHigh, notLow, Bool.or_self, if_neg Bool.false_ne_true, Char.ofNat, dif_pos valid]
  rfl

/-- No escape is taken that ends with the text. -/
theorem not_quoted_escape {rest chars after : List Char} (short : rest.length ≤ 4) :
    ¬ Quoted Takes ('\\' :: 'u' :: rest) chars after := by
  intro quoted
  cases quoted with
  | next first _ =>
    cases first with
    | plain _ slash => exact slash rfl
    | letter escape => cases escape
    | code long => omega
    | halves long => omega

theorem codeAhead?_some {after : List Char} {code : Nat} (ahead : codeAhead? after = some code) :
    ∃ rest, after = '\\' :: 'u' :: rest ∧ hexQuad? (rest.take 4) = some code := by
  unfold codeAhead? at ahead
  split at ahead
  · next rest => exact ⟨rest, rfl, ahead⟩
  · cases ahead

/-- A high half that stands alone has no low one behind it, since no text ends there. -/
theorem Alone.not_paired {code : Nat} {after chars rest : List Char} (alone : Alone code after)
    (isHigh : isHighHalf code = true) (quoted : Quoted Takes after chars rest) :
    (codeAhead? after).any isLowHalf = false := by
  cases ahead : codeAhead? after with
  | none => rfl
  | some low =>
    obtain ⟨tail, rfl, digits⟩ := codeAhead?_some ahead
    rcases alone with single | ⟨next, second, notLow⟩
    · have short : tail.length ≤ 4 := by
        simp only [isHigh, escapeFollows, List.length_cons, Bool.true_and, Bool.and_eq_true,
          decide_eq_true_eq, not_and] at single
        by_contra long
        exact single (by omega) rfl
      exact (not_quoted_escape short quoted).elim
    · cases digits.symm.trans second
      simpa using notLow

theorem escapeFollows_split {after : List Char} (follows : escapeFollows after = true) :
    after = '\\' :: 'u' :: ((after.drop 2).take 4 ++ after.drop 6) := by
  have mark : after.take 2 = ['\\', 'u'] := by
    simpa using (Bool.and_eq_true_iff.mp follows).2
  have rest : after.drop 6 = (after.drop 2).drop 4 := by rw [List.drop_drop]
  rw [rest, List.take_append_drop]
  exact (List.take_append_drop 2 after).symm.trans (by rw [mark]; rfl)

theorem Takes.whole {cs rest chars after : List Char} {c : Char} (takes : Takes cs c rest)
    (others : Quoted Takes rest chars after) (paired : halvesPaired cs = true) :
    Letter cs c rest ∧ halvesPaired rest = true := by
  cases takes with
  | plain quote slash printed =>
    rw [halvesPaired_plain slash] at paired
    exact ⟨.plain quote slash printed, paired⟩
  | @letter e _ _ escape =>
    have other : e ≠ 'u' := by
      rintro rfl
      cases escape
    rw [halvesPaired_escape other] at paired
    exact ⟨.escape escape, paired⟩
  | @code tail code long digits alone =>
    rw [halvesPaired_code digits] at paired
    cases isHigh : isHighHalf code with
    | true =>
      rw [isHigh, if_pos rfl, alone.not_paired isHigh others] at paired
      cases paired
    | false =>
      rw [isHigh, if_neg Bool.false_ne_true, Bool.and_eq_true, Bool.not_eq_true'] at paired
      have whole := charOfCode_toNat (hexQuad?_some digits).2.1 isHigh paired.1
      have letter : Letter ('\\' :: 'u' :: (tail.take 4 ++ tail.drop 4)) (charOfCode code)
          (tail.drop 4) := .code (digits.trans (congrArg some whole.symm))
      rw [List.take_append_drop] at letter
      exact ⟨letter, paired.2⟩
  | @halves tail high low long digits follows second isLow =>
    rw [Bool.and_eq_true] at follows
    rw [halvesPaired_code digits, if_pos follows.1, Bool.and_eq_true] at paired
    have parts : tail = tail.take 4 ++ '\\' :: 'u' ::
        (((tail.drop 4).drop 2).take 4 ++ tail.drop 10) := by
      have rest : tail.drop 10 = (tail.drop 4).drop 6 := by rw [List.drop_drop]
      rw [rest, ← escapeFollows_split follows.2, List.take_append_drop]
    have letter := @Letter.halves _ _ (tail.drop 10) _ _ digits follows.1 second isLow
    rw [← parts] at letter
    exact ⟨letter, paired.2⟩

theorem Quoted.letters {cs chars rest : List Char} (quoted : Quoted Takes cs chars rest)
    (paired : halvesPaired cs = true) : Quoted Letter cs chars rest ∧ halvesPaired rest = true := by
  induction quoted with
  | close =>
    rw [halvesPaired_plain (by decide)] at paired
    exact ⟨.close, paired⟩
  | next first others ih =>
    obtain ⟨letter, paired⟩ := first.whole others paired
    obtain ⟨letters, paired⟩ := ih paired
    exact ⟨.next letter letters, paired⟩

/-- What is read of a document without lone halves stands in front of what is left. -/
def Sound {α : Type} (read : Cursor → Except Stop (α × Cursor))
    (stands : List Char → α → List Char → Prop) : Prop :=
  ∀ c a c', read c = .ok (a, c') → halvesPaired c.rest = true →
    stands c.rest a c'.rest ∧ halvesPaired c'.rest = true

theorem space_dropWhile (cs : List Char) : Space cs (cs.dropWhile isSpace) :=
  ⟨cs.takeWhile isSpace, fun _ mem => List.all_eq_true.mp List.all_takeWhile _ mem,
    List.takeWhile_append_dropWhile.symm⟩

/-- White space escapes nothing. -/
theorem Space.paired {cs rest : List Char} (space : Space cs rest) :
    halvesPaired cs = halvesPaired rest := by
  obtain ⟨gap, blank, rfl⟩ := space
  exact halvesPaired_append fun mem => absurd (blank _ mem) (by decide)

theorem readAtom_sound : Sound readAtom StandsFor := by
  intro c v c' read paired
  obtain ⟨n, front, rfl⟩ := readAtom_ok read
  obtain ⟨-, -, plain⟩ := atom?_front front
  refine ⟨.atom read, ?_⟩
  rw [Cursor.advance, halvesPaired_drop (plain _ (by decide))]
  exact paired

/-- The same of parts with commas between them, which make up a whole. -/
def SoundParts {α : Type} (read : Cursor → Except Stop (Json × Cursor)) (whole : List α → Json)
    (stands : List Char → α → List Char → Prop) (close : Char) : Prop :=
  ∀ c v c', read c = .ok (v, c') → halvesPaired c.rest = true →
    ∃ as, v = whole as ∧ Listed stands close c.rest as c'.rest ∧ halvesPaired c'.rest = true

theorem readListed_sound {α : Type} {part : Cursor → Except Stop (α × Cursor)} {close : Char}
    {last : α → Json} {more : α → Cursor → Except Stop (Json × Cursor)} {whole : List α → Json}
    {stands : List Char → α → List Char → Prop} (slash : close ≠ '\\') (first : Sound part stands)
    (one : ∀ a, last a = whole [a])
    (others : ∀ a, SoundParts (more a) (fun as => whole (a :: as)) stands close) :
    SoundParts (readListed part close last more) whole stands close := by
  intro c v c' read paired
  obtain ⟨a, c₁, rest, came, further⟩ := readListed_ok read
  obtain ⟨stands, paired⟩ := first c a c₁ came paired
  have space := space_dropWhile c₁.rest
  rw [space.paired] at paired
  rcases further with ⟨front, rfl, left⟩ | ⟨o, front, -, read⟩
  · rw [front] at space paired
    rw [halvesPaired_plain slash] at paired
    rw [left]
    exact ⟨[a], one a, .last stands space, paired⟩
  · have before := space_dropWhile rest
    rw [front] at space paired
    rw [halvesPaired_plain (by decide), before.paired] at paired
    rw [skipSpace_eq] at read
    obtain ⟨as, rfl, listed, paired⟩ := others a _ v c' read paired
    exact ⟨a :: as, rfl, .more stands space before listed, paired⟩

theorem readField_sound {fuel : Nat} (value : Sound (readValue fuel) StandsFor) :
    Sound (readField fuel) (Named StandsFor) := by
  rintro ⟨cs, o⟩ ⟨n, v⟩ c' read paired
  obtain ⟨tail, name, c₁, rest, o', rfl, named, front, rfl, came⟩ := readField_ok read
  dsimp only at paired came ⊢
  rw [halvesPaired_plain (by decide)] at paired
  obtain ⟨chars, rfl, quoted⟩ := quoted_of_readText named
  obtain ⟨letters, paired⟩ := quoted.letters paired
  have space := space_dropWhile c₁.rest
  have before := space_dropWhile rest
  rw [front] at space
  rw [space.paired, halvesPaired_plain (by decide), before.paired] at paired
  obtain ⟨stands, paired⟩ := value _ v c' came paired
  exact ⟨.field letters space before stands, paired⟩

/-- A list or an object has no parts, or it is made up of them. -/
theorem readOpened_sound {α : Type} {read : Cursor → Except Stop (Json × Cursor)}
    {whole : List α → Json} {stands : List Char → α → List Char → Prop} {close : Char}
    {empty v : Json} {c c' : Cursor} (slash : close ≠ '\\') (parts : SoundParts read whole stands close)
    (came : readOpened read close empty c = .ok (v, c')) (paired : halvesPaired c.rest = true) :
    ((v = empty ∧ Space c.rest (close :: c'.rest)) ∨
      ∃ cs as, v = whole as ∧ Space c.rest cs ∧ Listed stands close cs as c'.rest) ∧
    halvesPaired c'.rest = true := by
  have space := space_dropWhile c.rest
  rw [space.paired] at paired
  rcases readOpened_ok came with ⟨rfl, front⟩ | ⟨-, read⟩
  · rw [front] at space paired
    rw [halvesPaired_plain slash] at paired
    exact ⟨.inl ⟨rfl, space⟩, paired⟩
  · rw [skipSpace_eq] at read
    obtain ⟨as, rfl, listed, paired⟩ := parts _ v c' read paired
    exact ⟨.inr ⟨_, as, rfl, space, listed⟩, paired⟩

/-- By cases on the first character. -/
theorem readValue_sound {fuel : Nat}
    (items : SoundParts (readItems fuel []) .arr StandsFor ']')
    (fields : SoundParts (readFields fuel []) (fun fs => .obj (gather [] fs)) (Named StandsFor) '}') :
    Sound (readValue (fuel + 1)) StandsFor := by
  rintro ⟨cs, o⟩ v c' read paired
  dsimp only at paired ⊢
  obtain ⟨tail, rfl⟩ | ⟨tail, rfl⟩ | ⟨tail, rfl⟩ | plain := mark_cases cs
  · rw [halvesPaired_plain (by decide)] at paired
    obtain ⟨ts, text, rfl⟩ := readText_of_readValue read
    obtain ⟨chars, rfl, quoted⟩ := quoted_of_readText text
    obtain ⟨letters, paired⟩ := quoted.letters paired
    exact ⟨.text letters, paired⟩
  · rw [readValue_items] at read
    rw [halvesPaired_plain (by decide)] at paired
    obtain ⟨⟨rfl, space⟩ | ⟨cs, vs, rfl, space, listed⟩, paired⟩ :=
      readOpened_sound (by decide) items read paired
    · exact ⟨.noItems space, paired⟩
    · exact ⟨.items space listed, paired⟩
  · rw [readValue_fields] at read
    rw [halvesPaired_plain (by decide)] at paired
    obtain ⟨⟨rfl, space⟩ | ⟨cs, fs, rfl, space, listed⟩, paired⟩ :=
      readOpened_sound (by decide) fields read paired
    · exact ⟨.noFields space, paired⟩
    · exact ⟨.fields space listed, paired⟩
  · rw [readValue_atom plain] at read
    exact readAtom_sound _ v c' read paired

/-- By induction on the fuel. -/
theorem reader_sound (fuel : Nat) : Sound (readValue fuel) StandsFor ∧
    (∀ done, SoundParts (readItems fuel done) (fun vs => .arr (done ++ vs)) StandsFor ']') ∧
    ∀ done, SoundParts (readFields fuel done) (fun fs => .obj (gather done fs)) (Named StandsFor)
      '}' := by
  induction fuel with
  | zero =>
    refine ⟨fun c v c' read => ?_, fun done c v c' read => ?_, fun done c v c' read => ?_⟩
    · rw [readValue] at read
      cases read
    · rw [readItems] at read
      cases read
    · rw [readFields] at read
      cases read
  | succ fuel ih =>
    obtain ⟨value, items, fields⟩ := ih
    refine ⟨readValue_sound (items []) (fields []), fun done => ?_, fun done => ?_⟩
    · intro c v c' read
      rw [readItems_succ] at read
      refine readListed_sound (by decide) value (fun _ => rfl) (fun v => ?_) c v c' read
      simpa using items (done ++ [v])
    · intro c v c' read
      rw [readFields_succ] at read
      exact readListed_sound (by decide) (readField_sound value) (fun _ => rfl)
        (fun f => fields (setNamed done f.1 f.2)) c v c' read

/-- A document that is read stands for its value, if no half in it stands alone. -/
theorem read_stands {s : String} {v : Json} (h : read s = .ok v)
    (paired : halvesPaired s.toList = true) :
    ∃ cs rest, Space s.toList cs ∧ StandsFor cs v rest ∧ Space rest [] := by
  obtain ⟨-, o, c, came, spent⟩ := readChars_ok (readChars_of_read h)
  have before := space_dropWhile s.toList
  have behind := space_dropWhile c.rest
  rw [before.paired] at paired
  rw [spent] at behind
  exact ⟨_, _, before, ((reader_sound _).1 _ v c came paired).1, behind⟩

/-! ## What is written -/

/-- A part of a document in which no half stands alone and of which none reaches over the end. -/
def IsWhole (cs : List Char) : Prop :=
  ∀ rest, halvesPaired (cs ++ rest) = halvesPaired rest

theorem isWhole_unescaped {cs : List Char} (plain : '\\' ∉ cs) : IsWhole cs :=
  fun _ => halvesPaired_append plain

theorem IsWhole.append {cs ds : List Char} (first : IsWhole cs) (second : IsWhole ds) :
    IsWhole (cs ++ ds) := by
  intro rest
  rw [List.append_assoc, first, second]

theorem isWhole_intercalate {sep : List Char} {ts : List (List Char)} (between : IsWhole sep)
    (parts : ∀ t ∈ ts, IsWhole t) : IsWhole (sep.intercalate ts) := by
  induction ts with
  | nil => exact isWhole_unescaped (by simp)
  | cons t ts ih =>
    rw [List.forall_mem_cons] at parts
    cases ts with
    | nil => simpa using parts.1
    | cons u ts =>
      rw [List.intercalate_cons_cons]
      exact (parts.1.append between).append (ih parts.2)

/-- A character is escaped as a whole, whichever of its forms is written. -/
theorem Written.isWhole {c : Char} {cs : List Char} (written : Written c cs) : IsWhole cs := by
  intro rest
  cases written with
  | @letter e _ escape =>
    refine halvesPaired_escape ?_
    rintro rfl
    cases escape
  | plain _ slash => exact halvesPaired_plain slash
  | code small =>
    obtain ⟨quad, eq, four, reads⟩ := escapeCode_append small rest
    rw [eq, halvesPaired_code (by rw [List.take_left' four, reads]), List.drop_left' four,
      isHighHalf_toNat, isLowHalf_toNat]
    rfl
  | halves large =>
    obtain ⟨isHigh, isLow, -⟩ := joinHalves_toNat large
    exact halvesPaired_halves isHigh isLow rest

theorem isWhole_writeText (s : String) : IsWhole (writeText s).toList := by
  have each (cs : List Char) : IsWhole (cs.flatMap escapeChar) := by
    induction cs with
    | nil => exact isWhole_unescaped (by simp)
    | cons c cs ih => exact (written_escapeChar c).isWhole.append ih
  have quote : IsWhole ['"'] := isWhole_unescaped (by decide)
  rw [writeText_toList]
  exact quote.append ((each _).append quote)

theorem intText_unescaped (i : Int) : '\\' ∉ (intText i).toList := by
  rw [← numberChars_int]
  exact numberChars_unescaped _ (proper_int i.natAbs)

/-- The brackets, the breaks and the commas between whole parts. -/
theorem isWhole_bracketed (start finish : Char) (depth : Nat) {ts : List String}
    (front : '\\' ≠ start) (back : '\\' ≠ finish) (parts : ∀ t ∈ ts, IsWhole t.toList) :
    IsWhole (start :: ((breakLine (depth + 1)).toList ++
      ((',' :: (breakLine (depth + 1)).toList).intercalate (ts.map String.toList) ++
      ((breakLine depth).toList ++ [finish])))) := by
  have breaks (n : Nat) : '\\' ∉ (breakLine n).toList := by
    simp [breakLine]
  have comma : IsWhole (',' :: (breakLine (depth + 1)).toList) :=
    isWhole_unescaped (by simpa using breaks (depth + 1))
  have inside := isWhole_intercalate comma (List.forall_mem_map.mpr parts)
  have first : IsWhole [start] := isWhole_unescaped (by simpa using front)
  have last : IsWhole [finish] := isWhole_unescaped (by simpa using back)
  exact first.append ((isWhole_unescaped (breaks _)).append
    (inside.append ((isWhole_unescaped (breaks _)).append last)))

mutual

/-- By recursion on the value. -/
theorem isWhole_indented (depth : Nat) : ∀ v, IsWhole (writeIndented depth v).toList
  | .null => isWhole_unescaped (by simp [writeIndented, write])
  | .bool b => isWhole_unescaped (by cases b <;> simp [writeIndented, write])
  | .int i => isWhole_unescaped (intText_unescaped i)
  | .float x => isWhole_unescaped (writeFloat_unescaped x)
  | .str s => isWhole_writeText s
  | .arr [] => isWhole_unescaped (by simp [writeIndented, write, writeItems])
  | .obj [] => isWhole_unescaped (by simp [writeIndented, write, writeFields])
  | .arr (v :: vs) => by
    have whole := isWhole_bracketed '[' ']' depth (by decide) (by decide)
      (isWhole_items (depth + 1) (v :: vs))
    rw [writeIndented]
    simpa [String.toList_intercalate] using whole
  | .obj (f :: fs) => by
    have whole := isWhole_bracketed '{' '}' depth (by decide) (by decide)
      (isWhole_fields (depth + 1) (f :: fs))
    rw [writeIndented]
    simpa [String.toList_intercalate] using whole

theorem isWhole_items (depth : Nat) : ∀ vs, ∀ t ∈ indentedItems depth vs, IsWhole t.toList
  | [] => by simp [indentedItems]
  | v :: vs => by
    rw [indentedItems, List.forall_mem_cons]
    exact ⟨isWhole_indented depth v, isWhole_items depth vs⟩

theorem isWhole_fields (depth : Nat) : ∀ fs, ∀ t ∈ indentedFields depth fs, IsWhole t.toList
  | [] => by simp [indentedFields]
  | (n, v) :: fs => by
    rw [indentedFields, List.forall_mem_cons]
    refine ⟨?_, isWhole_fields depth fs⟩
    rw [String.toList_append, String.toList_append]
    exact ((isWhole_writeText n).append (isWhole_unescaped (by decide))).append
      (isWhole_indented depth v)

end

/-- No half stands alone in a document that is written. -/
theorem halvesPaired_writeIndented (v : Json) :
    halvesPaired (writeIndented 0 v).toList = true := by
  have whole := isWhole_indented 0 v []
  rwa [List.append_nil, halvesPaired_nil] at whole

end LintHub.Json
