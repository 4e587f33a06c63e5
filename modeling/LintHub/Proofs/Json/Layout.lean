import Mathlib.Data.List.Forall2
import LintHub.Proofs.Json.Numbers
import LintHub.Proofs.Lists

/-! # Documents and their layout

`Spells t v`: wherever `t` stands in front of something that does not go on with a number, it is read
as `v` and what follows is left. White space between the parts of a list or an object does not
matter, so that every layout spells the value that was written.
-/

namespace LintHub.Json

open Text

structure Spells (t : List Char) (v : Json) : Prop where
  head : ∃ c cs, t = c :: cs ∧ IsPrintable c ∧ c ≠ ' ' ∧ c ≠ ']'
  read : ∀ fuel rest offset, t.length ≤ fuel → Ends rest →
    ∃ offset', readValue fuel ⟨t ++ rest, offset⟩ = .ok (v, ⟨rest, offset'⟩)

/-- The first character takes one level of reading, whatever is made of the others. -/
theorem Spells.of_front {c : Char} {cs : List Char} {v : Json}
    (front : IsPrintable c ∧ c ≠ ' ' ∧ c ≠ ']')
    (read : ∀ fuel rest offset, cs.length ≤ fuel → Ends rest →
      ∃ offset', readValue (fuel + 1) ⟨c :: (cs ++ rest), offset⟩ = .ok (v, ⟨rest, offset'⟩)) :
    Spells (c :: cs) v := by
  refine ⟨⟨c, cs, rfl, front⟩, fun fuel rest offset enough ends => ?_⟩
  cases fuel with
  | zero => cases enough
  | succ fuel => exact read fuel rest offset (Nat.le_of_succ_le_succ enough) ends

/-! ## Words and numbers -/

theorem readValue_atom {fuel : Nat} {c : Cursor}
    (plain : ∀ x ∈ c.rest.head?, x ≠ '"' ∧ x ≠ '[' ∧ x ≠ '{') :
    readValue (fuel + 1) c = readAtom c := by
  rw [readValue]
  split
  · next eq => exact ((plain '"' (by rw [eq]; rfl)).1 rfl).elim
  · next eq => exact ((plain '[' (by rw [eq]; rfl)).2.1 rfl).elim
  · next eq => exact ((plain '{' (by rw [eq]; rfl)).2.2 rfl).elim
  · rfl

/-- What is read as a word or a number wherever it stands. -/
theorem Spells.atom {t : List Char} {v : Json}
    (head : ∃ c cs, t = c :: cs ∧ (IsPrintable c ∧ c ≠ ' ' ∧ c ≠ ']') ∧
      c ≠ '"' ∧ c ≠ '[' ∧ c ≠ '{')
    (read : ∀ rest offset, Ends rest →
      readAtom ⟨t ++ rest, offset⟩ = .ok (v, ⟨rest, offset + t.length⟩)) : Spells t v := by
  obtain ⟨c, cs, rfl, first, plain⟩ := head
  refine .of_front first fun fuel rest offset _ ends => ⟨offset + (c :: cs).length, ?_⟩
  rw [readValue_atom, ← List.cons_append, read rest offset ends]
  intro x hx
  cases hx
  exact plain

theorem spells_null : Spells (write .null).toList .null :=
  .atom ⟨'n', _, rfl, by decide⟩ fun _ _ _ => rfl

theorem spells_bool (b : Bool) : Spells (write (.bool b)).toList (.bool b) := by
  cases b with
  | false => exact .atom ⟨'f', _, rfl, by decide⟩ fun _ _ _ => rfl
  | true => exact .atom ⟨'t', _, rfl, by decide⟩ fun _ _ _ => rfl

/-- What is put together as a number is read as what its parts say. -/
theorem Spells.number {negative : Bool} {whole fraction : List Char}
    {exponent : Option (Bool × List Char)} {v : Json} (proper : Proper whole fraction exponent)
    (value : (⟨negative, whole, fraction, exponent,
      (numberChars negative whole fraction exponent).length⟩ : NumberParts).toJson = .ok v) :
    Spells (numberChars negative whole fraction exponent) v := by
  refine .atom ?_ fun rest offset ends => ?_
  · obtain ⟨c, cs, front, digit⟩ := proper.digit_front
    have ne {d : Char} (h : d.isDigit = false) : c ≠ d := ne_of_isDigit digit h
    have printed := numberChars_isPrintable negative proper
    unfold numberChars at printed ⊢
    rw [front] at printed ⊢
    cases negative with
    | true => exact ⟨'-', _, rfl, by decide⟩
    | false =>
      exact ⟨c, cs, rfl, ⟨printed c (List.mem_cons_self ..), ne rfl, ne rfl⟩, ne rfl, ne rfl, ne rfl⟩
  · unfold readAtom
    dsimp only
    rw [words_find?_numberChars negative proper, numberParts?_numberChars negative proper ends]
    dsimp only
    rw [value]
    show Except.ok _ = _
    rw [Cursor.advance, List.drop_left]

theorem spells_int {i : Int} (short : i.natAbs < 10 ^ digitLimit) :
    Spells (write (.int i)).toList (.int i) := by
  rw [write, ← numberChars_int]
  exact .number (proper_int i.natAbs) (toJson_int short _)

theorem spells_text (s : String) : Spells (write (.str s)).toList (.str s) := by
  rw [write, writeText_toList]
  refine .of_front (by decide) fun fuel rest offset _ _ => ?_
  obtain ⟨offset', reads⟩ := readText_flatMap offset (offset + 1) [] s.toList rest
  refine ⟨offset', ?_⟩
  rw [readValue]
  simp only [List.cons_append, List.append_assoc, List.nil_append, reads, List.reverse_nil,
    String.ofList_toList]

/-! ## Lists and objects -/

/-- White space between the parts of a document. -/
def IsGap (cs : List Char) : Prop :=
  ∀ c ∈ cs, isSpace c = true

theorem isGap_nil : IsGap [] := by
  intro c h
  cases h

theorem skipSpace_gap {gap rest : List Char} {offset : Nat} (space : IsGap gap)
    (stop : ∀ c ∈ rest.head?, isSpace c = false) :
    Cursor.skipSpace ⟨gap ++ rest, offset⟩ = ⟨rest, offset + gap.length⟩ := by
  have front : (gap ++ rest).takeWhile isSpace = gap := by
    rw [List.takeWhile_append_of_pos space]
    cases rest with
    | nil => simp
    | cons c cs => rw [List.takeWhile_cons, if_neg (by simp [stop c rfl]), List.append_nil]
  rw [Cursor.skipSpace, Cursor.advance, front, List.drop_left]

theorem Spells.not_space {t : List Char} {v : Json} (h : Spells t v) (rest : List Char) :
    ∀ c ∈ (t ++ rest).head?, isSpace c = false := by
  obtain ⟨c, cs, rfl, printed, space, -⟩ := h.head
  intro d hd
  cases hd
  have low (e : Char) (control : e.toNat < 32) : c ≠ e := by
    rintro rfl
    exact absurd printed.1 (by omega)
  unfold isSpace
  simp [space, low]

theorem ends_gap {gap rest : List Char} (space : IsGap gap) (ends : Ends rest) :
    Ends (gap ++ rest) := by
  cases gap with
  | nil => exact ends
  | cons c cs =>
    refine ends_cons ?_
    have blank := space c (List.mem_cons_self ..)
    simp only [isSpace, Bool.or_eq_true, beq_iff_eq] at blank
    rcases blank with ((rfl | rfl) | rfl) | rfl <;> decide

theorem advance_one (c : Char) (rest : List Char) (offset : Nat) :
    Cursor.advance ⟨c :: rest, offset⟩ 1 = ⟨rest, offset + 1⟩ := rfl

theorem readValue_bracket (fuel offset : Nat) (rest : List Char) :
    readValue (fuel + 1) ⟨'[' :: rest, offset⟩ =
      if (Cursor.skipSpace ⟨rest, offset + 1⟩).rest.head? == some ']' then
        .ok (.arr [], (Cursor.skipSpace ⟨rest, offset + 1⟩).advance 1)
      else readItems fuel [] (Cursor.skipSpace ⟨rest, offset + 1⟩) := by
  rw [readValue]
  rfl

theorem readValue_brace (fuel offset : Nat) (rest : List Char) :
    readValue (fuel + 1) ⟨'{' :: rest, offset⟩ =
      if (Cursor.skipSpace ⟨rest, offset + 1⟩).rest.head? == some '}' then
        .ok (.obj [], (Cursor.skipSpace ⟨rest, offset + 1⟩).advance 1)
      else readFields fuel [] (Cursor.skipSpace ⟨rest, offset + 1⟩) := by
  rw [readValue]
  rfl

theorem intercalate_front (sep t : List Char) (ts : List (List Char)) :
    ∃ tail, sep.intercalate (t :: ts) = t ++ tail := by
  cases ts with
  | nil => exact ⟨[], by simp⟩
  | cons t' ts => exact ⟨_, by rw [List.intercalate_cons_cons, List.append_assoc]⟩

/-- A value at the front of a list is read, and the white space behind it does not matter. -/
theorem readItems_value {fuel : Nat} {t gap : List Char} {v : Json} (done : List Json)
    (rest : List Char) (offset : Nat) (h : Spells t v) (enough : t.length ≤ fuel)
    (space : IsGap gap) (ends : Ends rest) (stop : ∀ c ∈ rest.head?, isSpace c = false) :
    ∃ offset', readItems (fuel + 1) done ⟨t ++ (gap ++ rest), offset⟩ =
      match rest with
      | ']' :: _ => .ok (.arr (done ++ [v]), Cursor.advance ⟨rest, offset'⟩ 1)
      | ',' :: _ => readItems fuel (done ++ [v]) (Cursor.advance ⟨rest, offset'⟩ 1).skipSpace
      | _ => .error (.at .comma offset') := by
  obtain ⟨o, read⟩ := h.read fuel (gap ++ rest) offset enough (ends_gap space ends)
  have skipped : Cursor.skipSpace ⟨gap ++ rest, o⟩ = ⟨rest, o + gap.length⟩ :=
    skipSpace_gap space stop
  refine ⟨o + gap.length, ?_⟩
  rw [readItems, read]
  dsimp only
  exact skipped.symm ▸ rfl

/-- White space, and what is read as items up to the closing bracket. -/
def SpellsItems (t : List Char) (vs : List Json) : Prop :=
  ∀ fuel done rest offset, t.length ≤ fuel →
    ∃ offset', readItems fuel done (Cursor.skipSpace ⟨t ++ rest, offset⟩) =
      .ok (.arr (done ++ vs), ⟨rest, offset'⟩)

section
variable {sep trail : List Char}

/-- By induction on the items: white space before the first, a comma and white space before each of
the others, white space and a bracket behind the last. -/
theorem spellsItems_intercalate (hsep : IsGap sep) (htrail : IsGap trail) {ts : List (List Char)}
    {vs : List Json} (items : List.Forall₂ Spells ts vs) (some : vs ≠ []) {lead : List Char}
    (hlead : IsGap lead) :
    SpellsItems (lead ++ ((',' :: sep).intercalate ts ++ (trail ++ [']']))) vs := by
  induction items generalizing lead with
  | nil => exact (some rfl).elim
  | @cons t v ts vs first others ih =>
    intro fuel done rest offset enough
    obtain ⟨fuel, rfl⟩ : ∃ n, fuel = n + 1 :=
      ⟨fuel - 1, by simp only [List.length_append, List.length_singleton] at enough; omega⟩
    cases others with
    | nil =>
      simp only [List.intercalate_singleton, List.length_append, List.length_singleton] at enough
      simp only [List.intercalate_singleton, List.append_assoc, List.singleton_append]
      rw [skipSpace_gap hlead (first.not_space _)]
      obtain ⟨o, read⟩ := readItems_value done (']' :: rest) (offset + lead.length)
        first (by omega : t.length ≤ fuel) htrail (ends_cons (by decide)) (by simp [isSpace])
      exact ⟨_, read⟩
    | @cons t' v' ts vs second others =>
      rw [List.intercalate_cons_cons] at enough ⊢
      simp only [List.length_append, List.length_cons, List.length_nil] at enough
      simp only [List.append_assoc, List.cons_append]
      rw [skipSpace_gap hlead (first.not_space _)]
      obtain ⟨o, read⟩ := readItems_value done
        (',' :: (sep ++ ((',' :: sep).intercalate (t' :: ts) ++ (trail ++ ']' :: rest))))
        (offset + lead.length) first (by omega : t.length ≤ fuel) isGap_nil
        (ends_cons (by decide)) (by simp [isSpace])
      obtain ⟨o', rest⟩ := ih (by simp) hsep fuel (done ++ [v]) rest (o + 1)
        (by simp only [List.length_append, List.length_cons, List.length_nil]; omega)
      refine ⟨o', read.trans ?_⟩
      simpa [Cursor.advance] using rest

theorem spells_arr (hsep : IsGap sep) (htrail : IsGap trail) {ts : List (List Char)}
    {vs : List Json} (items : List.Forall₂ Spells ts vs) (some : vs ≠ []) {lead : List Char}
    (hlead : IsGap lead) :
    Spells ('[' :: (lead ++ ((',' :: sep).intercalate ts ++ (trail ++ [']'])))) (.arr vs) := by
  refine .of_front (by decide) fun fuel rest offset enough _ => ?_
  obtain ⟨o, read⟩ := spellsItems_intercalate hsep htrail items some hlead fuel [] rest (offset + 1)
    enough
  refine ⟨o, ?_⟩
  rw [readValue_bracket, if_neg, read, List.nil_append]
  cases items with
  | nil => exact (some rfl).elim
  | @cons t v ts vs first others =>
    obtain ⟨tail, front⟩ := intercalate_front (',' :: sep) t ts
    obtain ⟨c, cs, rfl, -, -, bracket⟩ := first.head
    have stop := first.not_space (tail ++ (trail ++ [']']) ++ rest)
    rw [front, List.append_assoc, List.append_assoc, List.append_assoc, ← List.append_assoc tail,
      skipSpace_gap hlead stop]
    simpa using bracket

end

/-! ## Objects -/

/-- A name in quotes, a colon, white space and what is read as the value. -/
def SpellsField (t : List Char) (field : String × Json) : Prop :=
  ∃ blank u, IsGap blank ∧ t = (writeText field.1).toList ++ ':' :: (blank ++ u) ∧ Spells u field.2

/-- A field at the front of an object is read, and the white space behind it does not matter. -/
theorem readFields_field {fuel : Nat} {t gap : List Char} {field : String × Json} (done : Fields)
    (rest : List Char) (offset : Nat) (h : SpellsField t field) (enough : t.length ≤ fuel)
    (fresh : field.1 ∉ done.names) (space : IsGap gap) (ends : Ends rest)
    (stop : ∀ c ∈ rest.head?, isSpace c = false) :
    ∃ offset', readFields (fuel + 1) done ⟨t ++ (gap ++ rest), offset⟩ =
      match rest with
      | '}' :: _ => .ok (.obj (done ++ [field]), Cursor.advance ⟨rest, offset'⟩ 1)
      | ',' :: _ => readFields fuel (done ++ [field]) (Cursor.advance ⟨rest, offset'⟩ 1).skipSpace
      | _ => .error (.at .comma offset') := by
  obtain ⟨blank, u, isBlank, rfl, value⟩ := h
  obtain ⟨name, v⟩ := field
  rw [writeText_toList] at enough ⊢
  simp only [List.length_append, List.length_cons, List.length_nil] at enough
  obtain ⟨o, text⟩ := readText_flatMap offset (offset + 1) [] name.toList
    (':' :: (blank ++ (u ++ (gap ++ rest))))
  have colon : Cursor.skipSpace ⟨[] ++ ':' :: (blank ++ (u ++ (gap ++ rest))), o⟩ = _ :=
    skipSpace_gap isGap_nil (by simp [isSpace])
  have skipped : Cursor.skipSpace ⟨blank ++ (u ++ (gap ++ rest)), o + 1⟩ = _ :=
    skipSpace_gap isBlank (value.not_space _)
  obtain ⟨o', read⟩ := value.read fuel (gap ++ rest) (o + 1 + blank.length) (by omega)
    (ends_gap space ends)
  refine ⟨o' + gap.length, ?_⟩
  rw [readFields]
  simp only [List.cons_append, List.append_assoc, List.nil_append, List.reverse_nil,
    List.length_nil, Nat.add_zero] at text colon skipped ⊢
  rw [text]
  dsimp only
  rw [colon]
  dsimp only
  rw [advance_one, skipped, read]
  dsimp only
  rw [skipSpace_gap space stop, String.ofList_toList, setNamed_of_fresh fresh]
  rfl

/-- White space, and what is read as fields up to the closing brace. -/
def SpellsFields (t : List Char) (fs : Fields) : Prop :=
  ∀ fuel done rest offset, t.length ≤ fuel → (done ++ fs).names.Nodup →
    ∃ offset', readFields fuel done (Cursor.skipSpace ⟨t ++ rest, offset⟩) =
      .ok (.obj (done ++ fs), ⟨rest, offset'⟩)

theorem SpellsField.front {t : List Char} {field : String × Json} (h : SpellsField t field)
    (rest : List Char) :
    ∃ tail, t ++ rest = '"' :: tail := by
  obtain ⟨blank, u, -, rfl, -⟩ := h
  rw [writeText_toList]
  exact ⟨_, rfl⟩

theorem SpellsField.not_space {t : List Char} {field : String × Json} (h : SpellsField t field)
    (rest : List Char) : ∀ c ∈ (t ++ rest).head?, isSpace c = false := by
  obtain ⟨tail, eq⟩ := h.front rest
  rw [eq]
  simp [isSpace]

section
variable {sep trail : List Char}

/-- As for items; that the names differ keeps each field at the end of those read before. -/
theorem spellsFields_intercalate (hsep : IsGap sep) (htrail : IsGap trail) {ts : List (List Char)}
    {fs : Fields} (fields : List.Forall₂ SpellsField ts fs) (some : fs ≠ []) {lead : List Char}
    (hlead : IsGap lead) :
    SpellsFields (lead ++ ((',' :: sep).intercalate ts ++ (trail ++ ['}']))) fs := by
  induction fields generalizing lead with
  | nil => exact (some rfl).elim
  | @cons t f ts fs first others ih =>
    intro fuel done rest offset enough apart
    obtain ⟨fuel, rfl⟩ : ∃ n, fuel = n + 1 :=
      ⟨fuel - 1, by simp only [List.length_append, List.length_singleton] at enough; omega⟩
    have fresh : f.1 ∉ done.names := by
      rw [Fields.names, List.map_append, List.map_cons, List.nodup_append] at apart
      exact fun h => apart.2.2 _ h _ (List.mem_cons_self ..) rfl
    cases others with
    | nil =>
      simp only [List.intercalate_singleton, List.length_append, List.length_singleton] at enough
      simp only [List.intercalate_singleton, List.append_assoc, List.singleton_append]
      rw [skipSpace_gap hlead (first.not_space _)]
      obtain ⟨o, read⟩ := readFields_field done ('}' :: rest) (offset + lead.length)
        first (by omega : t.length ≤ fuel) fresh htrail (ends_cons (by decide)) (by simp [isSpace])
      exact ⟨_, read⟩
    | @cons t' f' ts fs second others =>
      rw [List.intercalate_cons_cons] at enough ⊢
      simp only [List.length_append, List.length_cons, List.length_nil] at enough
      simp only [List.append_assoc, List.cons_append]
      rw [skipSpace_gap hlead (first.not_space _)]
      obtain ⟨o, read⟩ := readFields_field done
        (',' :: (sep ++ ((',' :: sep).intercalate (t' :: ts) ++ (trail ++ '}' :: rest))))
        (offset + lead.length) first (by omega : t.length ≤ fuel) fresh isGap_nil
        (ends_cons (by decide)) (by simp [isSpace])
      obtain ⟨o', rest⟩ := ih (by simp) hsep fuel (done ++ [f]) rest (o + 1)
        (by simp only [List.length_append, List.length_cons, List.length_nil]; omega)
        (by rwa [List.append_assoc])
      refine ⟨o', read.trans ?_⟩
      simpa [Cursor.advance] using rest

theorem spells_obj (hsep : IsGap sep) (htrail : IsGap trail) {ts : List (List Char)}
    {fs : Fields} (fields : List.Forall₂ SpellsField ts fs) (some : fs ≠ [])
    (apart : fs.names.Nodup) {lead : List Char} (hlead : IsGap lead) :
    Spells ('{' :: (lead ++ ((',' :: sep).intercalate ts ++ (trail ++ ['}'])))) (.obj fs) := by
  refine .of_front (by decide) fun fuel rest offset enough _ => ?_
  obtain ⟨o, read⟩ := spellsFields_intercalate hsep htrail fields some hlead fuel [] rest
    (offset + 1) enough apart
  refine ⟨o, ?_⟩
  rw [readValue_brace, if_neg, read, List.nil_append]
  cases fields with
  | nil => exact (some rfl).elim
  | @cons t f ts fs first others =>
    obtain ⟨tail, front⟩ := intercalate_front (',' :: sep) t ts
    have stop := first.not_space (tail ++ (trail ++ ['}']) ++ rest)
    obtain ⟨u, quote⟩ := first.front (tail ++ (trail ++ ['}']) ++ rest)
    rw [front, List.append_assoc, List.append_assoc, List.append_assoc, ← List.append_assoc tail,
      skipSpace_gap hlead stop, quote]
    simp

end

end LintHub.Json
