import LintHub.Proofs.Json.Layout

/-! # How documents are read

Text in quotes is read one character after the other, a list or an object one part after the other.
Each step is told by what it takes from the front and by what it leaves, wherever the reader stands.
-/

namespace LintHub.Json

/-! ## White space -/

theorem skipSpace_eq (c : Cursor) :
    c.skipSpace = ⟨c.rest.dropWhile isSpace, c.offset + (c.rest.takeWhile isSpace).length⟩ := by
  have rest : c.rest.drop (c.rest.takeWhile isSpace).length = c.rest.dropWhile isSpace := by
    conv_lhs => rw [← List.takeWhile_append_dropWhile (p := isSpace) (l := c.rest), List.drop_append]
    simp
  rw [Cursor.skipSpace, Cursor.advance, rest]

/-! ## Text -/

theorem hexQuad?_some {quad : List Char} {n : Nat} (h : hexQuad? quad = some n) :
    quad.length = 4 ∧ n < 65536 ∧ ∀ c ∈ quad, (Text.hexValue? c).isSome = true := by
  unfold hexQuad? at h
  split at h
  · next a b c d =>
    simp only [Option.bind_eq_bind, Option.bind_eq_some_iff, Option.some.injEq] at h
    obtain ⟨_, ha, _, hb, _, hc, _, hd, rfl⟩ := h
    have la := Text.hexValue?_lt ha
    have lb := Text.hexValue?_lt hb
    have lc := Text.hexValue?_lt hc
    have ld := Text.hexValue?_lt hd
    exact ⟨rfl, by omega, by simp [ha, hb, hc, hd]⟩
  · cases h

/-- Whether another escape follows. -/
def escapeFollows (after : List Char) : Bool :=
  6 < after.length && after.take 2 == ['\\', 'u']

theorem readText_unicode (start offset : Nat) (done rest : List Char) :
    readText start offset done ('\\' :: 'u' :: rest) =
      if rest.length < 5 then .error (.at .unicodeEscape (offset + 1))
      else
        match hexQuad? (rest.take 4) with
        | none => .error (.at .unicodeEscape (offset + 1))
        | some high =>
          if isHighHalf high && escapeFollows (rest.drop 4) then
            match hexQuad? (((rest.drop 4).drop 2).take 4) with
            | none => .error (.at .unicodeEscape (offset + 7))
            | some low =>
              if isLowHalf low then
                readText start (offset + 12) (joinHalves high low :: done) (rest.drop 10)
              else readText start (offset + 6) (charOfCode high :: done) (rest.drop 4)
          else readText start (offset + 6) (charOfCode high :: done) (rest.drop 4) := by
  rw [readText]
  simp only [escapeFollows, Bool.and_assoc]
  rfl

section escape

variable {start offset high : Nat} {done rest : List Char} (long : ¬ rest.length < 5)
  (digits : hexQuad? (rest.take 4) = some high)
include long digits

/-- An escape that no other half follows stands for itself. -/
theorem readText_single
    (alone : ¬ (isHighHalf high && escapeFollows (rest.drop 4)) = true) :
    readText start offset done ('\\' :: 'u' :: rest) =
      readText start (offset + 6) (charOfCode high :: done) (rest.drop 4) := by
  rw [readText_unicode, if_neg long, digits]
  dsimp only
  rw [if_neg alone]

variable {low : Nat} (follows : (isHighHalf high && escapeFollows (rest.drop 4)) = true)
  (second : hexQuad? (((rest.drop 4).drop 2).take 4) = some low)
include follows second

theorem readText_unpaired (notLow : ¬ isLowHalf low = true) :
    readText start offset done ('\\' :: 'u' :: rest) =
      readText start (offset + 6) (charOfCode high :: done) (rest.drop 4) := by
  rw [readText_unicode, if_neg long, digits]
  dsimp only
  rw [if_pos follows, second]
  dsimp only
  rw [if_neg notLow]

theorem readText_pair (isLow : isLowHalf low = true) :
    readText start offset done ('\\' :: 'u' :: rest) =
      readText start (offset + 12) (joinHalves high low :: done) (rest.drop 10) := by
  rw [readText_unicode, if_neg long, digits]
  dsimp only
  rw [if_pos follows, second]
  dsimp only
  rw [if_pos isLow]

end escape

/-- No other half follows a code that is a half itself. -/
def Alone (code : Nat) (after : List Char) : Prop :=
  ¬ (isHighHalf code && escapeFollows after) = true ∨
    ∃ next, hexQuad? ((after.drop 2).take 4) = some next ∧ ¬ isLowHalf next = true

/-- The reader takes one character from the front of a text in quotes. -/
inductive Takes : List Char → Char → List Char → Prop where
  | plain {c : Char} {rest : List Char} (quote : c ≠ '"') (slash : c ≠ '\\')
    (printed : 32 ≤ c.toNat) : Takes (c :: rest) c rest
  | letter {e c : Char} {rest : List Char} (escape : simpleEscape? e = some c) :
    Takes ('\\' :: e :: rest) c rest
  | code {rest : List Char} {code : Nat} (long : ¬ rest.length < 5)
    (digits : hexQuad? (rest.take 4) = some code) (alone : Alone code (rest.drop 4)) :
    Takes ('\\' :: 'u' :: rest) (charOfCode code) (rest.drop 4)
  | halves {rest : List Char} {high low : Nat} (long : ¬ rest.length < 5)
    (digits : hexQuad? (rest.take 4) = some high)
    (follows : (isHighHalf high && escapeFollows (rest.drop 4)) = true)
    (second : hexQuad? (((rest.drop 4).drop 2).take 4) = some low) (isLow : isLowHalf low = true) :
    Takes ('\\' :: 'u' :: rest) (joinHalves high low) (rest.drop 10)

theorem Takes.read {cs rest : List Char} {c : Char} (takes : Takes cs c rest) (start offset : Nat)
    (done : List Char) : ∃ offset',
      readText start offset done cs = readText start offset' (c :: done) rest := by
  cases takes with
  | plain quote slash printed => exact ⟨_, readText_plain quote slash printed⟩
  | letter escape => exact ⟨_, readText_letter escape⟩
  | @code rest code long digits alone =>
    by_cases follows : (isHighHalf code && escapeFollows (rest.drop 4)) = true
    · rcases alone with single | ⟨next, second, notLow⟩
      · exact (single follows).elim
      · exact ⟨_, readText_unpaired long digits follows second notLow⟩
    · exact ⟨_, readText_single long digits follows⟩
  | halves long digits follows second isLow =>
    exact ⟨_, readText_pair long digits follows second isLow⟩

/-- Characters that are taken one after the other, up to the closing quote. -/
inductive Quoted (take : List Char → Char → List Char → Prop) :
    List Char → List Char → List Char → Prop where
  | close {rest : List Char} : Quoted take ('"' :: rest) [] rest
  | next {cs rest chars after : List Char} {c : Char} (first : take cs c rest)
    (others : Quoted take rest chars after) : Quoted take cs (c :: chars) after

/-- What is read of a text was taken one character after the other. -/
theorem quoted_of_readText {start offset : Nat} {done cs ts : List Char} {c : Cursor}
    (read : readText start offset done cs = .ok (ts, c)) :
    ∃ chars, ts = done.reverse ++ chars ∧ Quoted Takes cs chars c.rest := by
  have next {x : Char} {cs rest done : List Char} (takes : Takes cs x rest)
      (others : ∃ chars, ts = (x :: done).reverse ++ chars ∧ Quoted Takes rest chars c.rest) :
      ∃ chars, ts = done.reverse ++ chars ∧ Quoted Takes cs chars c.rest := by
    obtain ⟨chars, rfl, quoted⟩ := others
    exact ⟨x :: chars, by simp, .next takes quoted⟩
  fun_induction readText start offset done cs with
  | case1 => cases read
  | case2 offset done rest =>
    cases read
    exact ⟨[], (List.append_nil _).symm, .close⟩
  | case3 => cases read
  | case4 => cases read
  | case5 => cases read
  | case6 => cases read
  | case7 offset done rest long high digits after follows low second isLow ih =>
    rw [Bool.and_assoc] at follows
    exact next (.halves long digits follows second isLow) (ih read)
  | case8 offset done rest long high digits after follows low second notLow ih =>
    exact next (.code long digits (.inr ⟨low, second, notLow⟩)) (ih read)
  | case9 offset done rest long high digits after alone ih =>
    rw [Bool.and_assoc] at alone
    exact next (.code long digits (.inl alone)) (ih read)
  | case10 offset done e rest other d simple ih => exact next (.letter simple) (ih read)
  | case11 => cases read
  | case12 => cases read
  | case13 offset done d rest quote lone _ slash printed ih =>
    have unescaped : d ≠ '\\' := by
      intro same
      cases rest with
      | nil => exact lone same rfl
      | cons x rest => exact slash x rest same rfl
    exact next (.plain quote unescaped (Nat.le_of_not_lt printed)) (ih read)

theorem Quoted.read {cs chars rest : List Char} (quoted : Quoted Takes cs chars rest)
    (start offset : Nat) (done : List Char) : ∃ offset',
      readText start offset done cs = .ok (done.reverse ++ chars, ⟨rest, offset'⟩) := by
  induction quoted generalizing offset done with
  | close => exact ⟨_, by rw [readText, List.append_nil]⟩
  | next first _ ih =>
    obtain ⟨o, step⟩ := first.read start offset done
    obtain ⟨o', others⟩ := ih o (_ :: done)
    exact ⟨o', by rw [step, others, List.reverse_cons, List.append_assoc]; rfl⟩

/-! ## Words and numbers -/

/-- The word or the number in front, and how many characters it has. -/
def atom? (cs : List Char) : Option (Except Stop Json × Nat) :=
  match words.find? fun w => w.1.isPrefixOf cs with
  | some (w, v) => some (.ok v, w.length)
  | none => (numberParts? cs).map fun p => (p.toJson, p.length)

theorem readAtom_eq (c : Cursor) :
    readAtom c = match atom? c.rest with
      | some (e, n) => e.map fun v => (v, c.advance n)
      | none => .error (.at .value c.offset) := by
  unfold readAtom atom?
  cases words.find? fun w => w.1.isPrefixOf c.rest with
  | some w => rfl
  | none => cases numberParts? c.rest <;> rfl

theorem readAtom_ok {c c' : Cursor} {v : Json} (read : readAtom c = .ok (v, c')) :
    ∃ n, atom? c.rest = some (.ok v, n) ∧ c' = c.advance n := by
  rw [readAtom_eq] at read
  cases front : atom? c.rest with
  | none =>
    rw [front] at read
    cases read
  | some p =>
    obtain ⟨e, n⟩ := p
    rw [front] at read
    cases e <;> cases read
    exact ⟨n, rfl, rfl⟩

/-- Nothing but its own characters stands in a word or a number. -/
theorem atom?_front {cs : List Char} {e : Except Stop Json} {n : Nat} (front : atom? cs = some (e, n)) :
    0 < n ∧ cs ≠ [] ∧ ∀ x, IsForeign x → x ∉ cs.take n := by
  unfold atom? at front
  cases word : words.find? fun w => w.1.isPrefixOf cs with
  | some w =>
    rw [word] at front
    cases front
    have begins : w.1.isPrefixOf cs = true := by simpa using List.find?_some word
    obtain ⟨tail, rfl⟩ := List.isPrefixOf_iff_prefix.mp begins
    have mem := List.mem_of_find?_eq_some word
    have long : w.1 ≠ [] := by
      have each : ∀ w ∈ words, w.1 ≠ [] := by decide
      exact each w mem
    refine ⟨List.length_pos_iff.mpr long, by simp [long], fun x foreign => ?_⟩
    rw [List.take_left]
    exact foreign.2.2 w mem
  | none =>
    rw [word] at front
    obtain ⟨p, parts, same⟩ := Option.map_eq_some_iff.mp front
    cases same
    have some : cs ≠ [] := by
      rintro rfl
      cases parts
    have pos := (numberParts?_front (x := '"') (by decide) parts).1
    exact ⟨pos, some, fun x foreign => (numberParts?_front foreign parts).2⟩

/-! ## Parts with commas between them -/

/-- One of several parts with commas between them, up to a closing character. -/
def readListed {α : Type} (part : Cursor → Except Stop (α × Cursor)) (close : Char) (last : α → Json)
    (more : α → Cursor → Except Stop (Json × Cursor)) (c : Cursor) : Except Stop (Json × Cursor) :=
  match part c with
  | .error e => .error e
  | .ok (a, c) =>
    let c := c.skipSpace
    match c.rest with
    | d :: _ =>
      if d = close then .ok (last a, c.advance 1)
      else if d = ',' then more a (c.advance 1).skipSpace
      else .error (.at .comma c.offset)
    | [] => .error (.at .comma c.offset)

section listed

variable {α : Type} {part : Cursor → Except Stop (α × Cursor)} {close : Char} {last : α → Json}
  {more : α → Cursor → Except Stop (Json × Cursor)} {c c₁ c' : Cursor} {a : α} {v : Json}
  {rest : List Char} {o : Nat}

theorem readListed_close (came : part c = .ok (a, c₁)) (front : c₁.skipSpace = ⟨close :: rest, o⟩) :
    readListed part close last more c = .ok (last a, ⟨rest, o + 1⟩) := by
  rw [readListed, came]
  dsimp only
  rw [front]
  dsimp only
  rw [if_pos rfl, advance_one]

theorem readListed_comma (came : part c = .ok (a, c₁)) (front : c₁.skipSpace = ⟨',' :: rest, o⟩)
    (goesOn : ',' ≠ close) :
    readListed part close last more c = more a (Cursor.skipSpace ⟨rest, o + 1⟩) := by
  rw [readListed, came]
  dsimp only
  rw [front]
  dsimp only
  rw [if_neg goesOn, if_pos rfl, advance_one]

/-- A list that is read starts with a part, which is the last one or has a comma behind it. -/
theorem readListed_ok (read : readListed part close last more c = .ok (v, c')) :
    ∃ a c₁ rest, part c = .ok (a, c₁) ∧
      ((c₁.rest.dropWhile isSpace = close :: rest ∧ v = last a ∧ c'.rest = rest) ∨
        ∃ o, c₁.rest.dropWhile isSpace = ',' :: rest ∧ ',' ≠ close ∧
          more a (Cursor.skipSpace ⟨rest, o⟩) = .ok (v, c')) := by
  unfold readListed at read
  cases came : part c with
  | error e =>
    rw [came] at read
    cases read
  | ok p =>
    obtain ⟨a, c₁⟩ := p
    rw [came] at read
    dsimp only at read
    rw [skipSpace_eq] at read
    dsimp only at read
    cases front : c₁.rest.dropWhile isSpace with
    | nil =>
      rw [front] at read
      cases read
    | cons d rest =>
      rw [front, advance_one] at read
      dsimp only at read
      refine ⟨a, c₁, rest, rfl, ?_⟩
      by_cases closed : d = close
      · rw [if_pos closed] at read
        cases read
        exact .inl ⟨by rw [front, closed], rfl, rfl⟩
      · rw [if_neg closed] at read
        by_cases comma : d = ','
        · rw [if_pos comma] at read
          exact .inr ⟨_, by rw [front, comma], comma ▸ closed, read⟩
        · rw [if_neg comma] at read
          cases read

end listed

/-- A closing bracket or a comma in front. -/
theorem match_bracket {α : Type} (cs : List Char) (x y z : α) :
    (match cs with
      | ']' :: _ => x
      | ',' :: _ => y
      | _ => z) =
    match cs with
      | d :: _ => if d = ']' then x else if d = ',' then y else z
      | [] => z := by
  cases cs with
  | nil => rfl
  | cons d cs =>
    split
    · next eq =>
      cases eq
      rfl
    · next eq =>
      cases eq
      rfl
    · next bracket comma =>
      dsimp only
      rw [if_neg fun h => bracket cs (by rw [h]), if_neg fun h => comma cs (by rw [h])]

theorem match_brace {α : Type} (cs : List Char) (x y z : α) :
    (match cs with
      | '}' :: _ => x
      | ',' :: _ => y
      | _ => z) =
    match cs with
      | d :: _ => if d = '}' then x else if d = ',' then y else z
      | [] => z := by
  cases cs with
  | nil => rfl
  | cons d cs =>
    split
    · next eq =>
      cases eq
      rfl
    · next eq =>
      cases eq
      rfl
    · next brace comma =>
      dsimp only
      rw [if_neg fun h => brace cs (by rw [h]), if_neg fun h => comma cs (by rw [h])]

theorem match_colon {α : Type} (cs : List Char) (x y : α) :
    (match cs with
      | ':' :: _ => x
      | _ => y) = if cs.head? = some ':' then x else y := by
  split
  · rfl
  · next other =>
    rw [if_neg]
    intro colon
    cases cs with
    | nil => cases colon
    | cons d cs => exact other cs (by rw [Option.some.inj colon])

theorem readItems_succ (fuel : Nat) (done : List Json) (c : Cursor) :
    readItems (fuel + 1) done c =
      readListed (readValue fuel) ']' (fun v => .arr (done ++ [v]))
        (fun v => readItems fuel (done ++ [v])) c := by
  rw [readItems, readListed]
  rcases readValue fuel c with e | ⟨v, c⟩
  · rfl
  · exact match_bracket c.skipSpace.rest _ _ _

/-- A name, a colon and a value. -/
def readField (fuel : Nat) (c : Cursor) : Except Stop ((String × Json) × Cursor) :=
  match c.rest with
  | '"' :: rest =>
    match readText c.offset (c.offset + 1) [] rest with
    | .error e => .error e
    | .ok (name, c) =>
      let c := c.skipSpace
      if c.rest.head? = some ':' then
        (readValue fuel (c.advance 1).skipSpace).map fun p => ((String.ofList name, p.1), p.2)
      else .error (.at .colon c.offset)
  | _ => .error (.at .fieldName c.offset)

theorem readField_quote (fuel offset : Nat) (rest : List Char) :
    readField fuel ⟨'"' :: rest, offset⟩ =
      match readText offset (offset + 1) [] rest with
      | .error e => .error e
      | .ok (name, c) =>
        let c := c.skipSpace
        if c.rest.head? = some ':' then
          (readValue fuel (c.advance 1).skipSpace).map fun p => ((String.ofList name, p.1), p.2)
        else .error (.at .colon c.offset) := rfl

theorem readField_other {fuel offset : Nat} {cs : List Char} (other : ∀ rest, cs ≠ '"' :: rest) :
    readField fuel ⟨cs, offset⟩ = .error (.at .fieldName offset) := by
  unfold readField
  split
  · next rest eq => exact (other rest eq).elim
  · rfl

theorem readFields_succ (fuel : Nat) (done : Fields) (c : Cursor) :
    readFields (fuel + 1) done c =
      readListed (readField fuel) '}' (fun f => .obj (setNamed done f.1 f.2))
        (fun f => readFields fuel (setNamed done f.1 f.2)) c := by
  obtain ⟨cs, o⟩ := c
  rw [readFields, readListed]
  dsimp only
  split
  · next rest =>
    rw [readField_quote]
    rcases readText o (o + 1) [] rest with e | ⟨name, c⟩
    · rfl
    · refine (match_colon c.skipSpace.rest _ _).trans ?_
      dsimp only
      split
      · rcases readValue fuel (c.skipSpace.advance 1).skipSpace with e | ⟨v, c⟩
        · rfl
        · exact match_brace c.skipSpace.rest _ _ _
      · rfl
  · next other => rw [readField_other other]

/-- A field that is read starts with a quote, and a colon stands behind its name. -/
theorem readField_ok {fuel : Nat} {cs : List Char} {o : Nat} {f : String × Json} {c' : Cursor}
    (read : readField fuel ⟨cs, o⟩ = .ok (f, c')) :
    ∃ tail name c₁ rest o', cs = '"' :: tail ∧ readText o (o + 1) [] tail = .ok (name, c₁) ∧
      c₁.rest.dropWhile isSpace = ':' :: rest ∧ f.1 = String.ofList name ∧
      readValue fuel ⟨rest.dropWhile isSpace, o'⟩ = .ok (f.2, c') := by
  by_cases quote : ∃ tail, cs = '"' :: tail
  · obtain ⟨tail, rfl⟩ := quote
    rw [readField_quote] at read
    rcases named : readText o (o + 1) [] tail with e | ⟨name, c₁⟩
    · rw [named] at read
      cases read
    rw [named] at read
    dsimp only at read
    split at read
    · next colon =>
      rw [skipSpace_eq c₁] at colon read
      dsimp only at colon read
      obtain ⟨rest, front⟩ := List.head?_eq_some_iff.mp colon
      rw [front, advance_one, skipSpace_eq] at read
      rcases came : readValue fuel ⟨rest.dropWhile isSpace, _⟩ with e | ⟨v, c₂⟩
      · rw [came] at read
        cases read
      rw [came] at read
      cases read
      exact ⟨tail, name, c₁, rest, _, rfl, named, front, rfl, came⟩
    · cases read
  · rw [readField_other fun tail eq => quote ⟨tail, eq⟩] at read
    cases read

/-! ## Lists and objects -/

/-- Nothing or some parts, from behind the opening character to the closing one. -/
def readOpened (parts : Cursor → Except Stop (Json × Cursor)) (close : Char) (empty : Json)
    (c : Cursor) : Except Stop (Json × Cursor) :=
  if c.skipSpace.rest.head? == some close then .ok (empty, c.skipSpace.advance 1)
  else parts c.skipSpace

theorem readValue_items (fuel offset : Nat) (rest : List Char) :
    readValue (fuel + 1) ⟨'[' :: rest, offset⟩ =
      readOpened (readItems fuel []) ']' (.arr []) ⟨rest, offset + 1⟩ :=
  readValue_bracket fuel offset rest

theorem readValue_fields (fuel offset : Nat) (rest : List Char) :
    readValue (fuel + 1) ⟨'{' :: rest, offset⟩ =
      readOpened (readFields fuel []) '}' (.obj []) ⟨rest, offset + 1⟩ :=
  readValue_brace fuel offset rest

section opened

variable {parts : Cursor → Except Stop (Json × Cursor)} {close : Char} {empty v : Json}
  {c c' : Cursor} {rest : List Char} {o : Nat}

theorem readOpened_close (front : c.skipSpace = ⟨close :: rest, o⟩) :
    readOpened parts close empty c = .ok (empty, ⟨rest, o + 1⟩) := by
  rw [readOpened, front, if_pos (by simp), advance_one]

theorem readOpened_parts (front : c.skipSpace.rest.head? ≠ some close) :
    readOpened parts close empty c = parts c.skipSpace := by
  rw [readOpened, if_neg (by simpa using front)]

theorem readOpened_ok (read : readOpened parts close empty c = .ok (v, c')) :
    (v = empty ∧ c.rest.dropWhile isSpace = close :: c'.rest) ∨
      (c.rest.dropWhile isSpace).head? ≠ some close ∧ parts c.skipSpace = .ok (v, c') := by
  have skipped : c.skipSpace.rest = c.rest.dropWhile isSpace := by rw [skipSpace_eq]
  unfold readOpened at read
  rw [← skipped]
  split at read
  · next closed =>
    obtain ⟨rest, front⟩ := List.head?_eq_some_iff.mp (by simpa using closed)
    cases read
    exact .inl ⟨rfl, by rw [front, Cursor.advance, front]; rfl⟩
  · next open' => exact .inr ⟨by simpa using open', read⟩

end opened

/-! ## Values -/

/-- A text, a list or an object starts with its mark, and anything else is a word or a number. -/
theorem mark_cases (cs : List Char) :
    (∃ tail, cs = '"' :: tail) ∨ (∃ tail, cs = '[' :: tail) ∨ (∃ tail, cs = '{' :: tail) ∨
      ∀ x ∈ cs.head?, x ≠ '"' ∧ x ≠ '[' ∧ x ≠ '{' := by
  cases cs with
  | nil => simp
  | cons c tail =>
    by_cases quote : c = '"'
    · exact .inl ⟨tail, by rw [quote]⟩
    by_cases bracket : c = '['
    · exact .inr (.inl ⟨tail, by rw [bracket]⟩)
    by_cases brace : c = '{'
    · exact .inr (.inr (.inl ⟨tail, by rw [brace]⟩))
    · simp [quote, bracket, brace]

theorem readValue_quote (fuel offset : Nat) (rest : List Char) :
    readValue (fuel + 1) ⟨'"' :: rest, offset⟩ =
      (readText offset (offset + 1) [] rest).map fun p => (.str (String.ofList p.1), p.2) := by
  rw [readValue]
  split
  · next same =>
    cases same
    rcases readText offset (offset + 1) [] rest with e | ⟨cs, c⟩ <;> rfl
  · next same => cases same
  · next same => cases same
  · next other _ _ => exact (other rest rfl).elim

theorem readText_of_readValue {fuel offset : Nat} {rest : List Char} {v : Json} {c : Cursor}
    (read : readValue (fuel + 1) ⟨'"' :: rest, offset⟩ = .ok (v, c)) :
    ∃ cs, readText offset (offset + 1) [] rest = .ok (cs, c) ∧ v = .str (String.ofList cs) := by
  rw [readValue_quote] at read
  rcases text : readText offset (offset + 1) [] rest with e | ⟨cs, c⟩ <;> rw [text] at read
  · cases read
  · cases read
    exact ⟨cs, rfl, rfl⟩

theorem readChars_of_read {s : String} {v : Json} (h : read s = .ok v) :
    readChars s.toList = .ok v := by
  unfold read at h
  split at h
  · next came => rw [came, Except.ok.inj h]
  · cases h
  · cases h

/-- A document is read behind its white space and up to that at its end. -/
theorem readChars_ok {cs : List Char} {v : Json} (read : readChars cs = .ok v) :
    ¬ (cs.head? == some (Char.ofNat 0xfeff)) = true ∧
      ∃ o c, readValue (2 * cs.length + 2) ⟨cs.dropWhile isSpace, o⟩ = .ok (v, c) ∧
        c.rest.dropWhile isSpace = [] := by
  unfold readChars at read
  split at read
  · cases read
  next unmarked =>
  rw [skipSpace_eq] at read
  rcases came : readValue (2 * cs.length + 2) ⟨cs.dropWhile isSpace, _⟩ with e | ⟨w, c⟩
  · rw [came] at read
    cases read
  rw [came] at read
  dsimp only at read
  split at read
  · next spent =>
    cases read
    rw [skipSpace_eq, List.isEmpty_iff] at spent
    exact ⟨unmarked, _, c, came, spent⟩
  · cases read

end LintHub.Json
