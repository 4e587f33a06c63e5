import LintHub.Proofs.Json.Tokens

/-! # Documents and line ends

A document whose newlines are unified is read as the same value. A value, an item or a field that is
read takes no more fuel than there are characters in it, so that the shorter text is enough for it.
-/

namespace LintHub.Json

open Text (unifyNewlines unifyNewlines_cons head?_unifyNewlines)

/-! ## Values -/

/-- Fewer characters are left behind a front. -/
theorem length_drop_unified {cs : List Char} {n : Nat} (some : cs ≠ []) (pos : 0 < n)
    (plain : '\r' ∉ cs.take n) :
    (unifyNewlines (cs.drop n)).length < (unifyNewlines cs).length := by
  have front : 0 < (cs.take n).length := by
    rw [List.length_take]
    have := List.length_pos_iff.mpr some
    omega
  rw [unified_front plain, List.length_append]
  omega

/-- What is read of a text is read of the text with unified newlines, given as much fuel as there are
characters in it. -/
def Persists {α : Type} (read : Cursor → Except Stop (α × Cursor))
    (again : Nat → Cursor → Except Stop (α × Cursor)) : Prop :=
  ∀ c v c', read c = .ok (v, c') →
    (unifyNewlines c'.rest).length < (unifyNewlines c.rest).length ∧
    ∀ fuel offset, (unifyNewlines c.rest).length ≤ fuel + (unifyNewlines c'.rest).length →
      ∃ offset', again fuel ⟨unifyNewlines c.rest, offset⟩ = .ok (v, ⟨unifyNewlines c'.rest, offset'⟩)

theorem readAtom_persists : Persists readAtom fun _ => readAtom := by
  intro c v c' read
  obtain ⟨n, front, rfl⟩ := readAtom_ok read
  obtain ⟨pos, some, plain⟩ := atom?_front front
  have unread := plain _ isForeign_return
  refine ⟨length_drop_unified some pos unread, fun fuel offset _ => ⟨offset + n, ?_⟩⟩
  dsimp only
  rw [readAtom_eq, atom?_unified, front]
  dsimp only [Cursor.advance, Except.map]
  rw [drop_unified unread]

/-- A character in front that is left behind. -/
theorem length_unified_cons {c : Char} (cs : List Char) (plain : c ≠ '\r') :
    (unifyNewlines (c :: cs)).length = (unifyNewlines cs).length + 1 := by
  rw [unifyNewlines_cons _ plain, List.length_cons]

/-- What stands at the first character that is not blank. -/
theorem skipped_unified {cs rest : List Char} {d : Char} (front : cs.dropWhile isSpace = d :: rest)
    (plain : d ≠ '\r') (offset : Nat) :
    (unifyNewlines rest).length < (unifyNewlines cs).length ∧
      ∃ offset', Cursor.skipSpace ⟨unifyNewlines cs, offset⟩ = ⟨d :: unifyNewlines rest, offset'⟩ := by
  have shorter := length_dropSpace_le cs
  rw [front, length_unified_cons rest plain] at shorter
  obtain ⟨offset', skipped⟩ := skipSpace_unified cs offset
  rw [front, unifyNewlines_cons rest plain] at skipped
  exact ⟨by omega, offset', skipped⟩

/-- The part that comes first takes less fuel than there is, and so do the others. -/
theorem listed_persists {α : Type} {part : Cursor → Except Stop (α × Cursor)}
    {part' : Nat → Cursor → Except Stop (α × Cursor)} {close : Char} {last : α → Json}
    {more : α → Cursor → Except Stop (Json × Cursor)}
    {more' : Nat → α → Cursor → Except Stop (Json × Cursor)}
    {again : Nat → Cursor → Except Stop (Json × Cursor)} (closes : close ≠ '\r')
    (first : Persists part part') (others : ∀ a, Persists (more a) fun fuel => more' fuel a)
    (listed : ∀ fuel c, again (fuel + 1) c = readListed (part' fuel) close last (more' fuel) c) :
    Persists (readListed part close last more) again := by
  intro c v c' read
  obtain ⟨a, c₁, rest, came, ⟨front, rfl, left⟩ | ⟨o₁, front, goesOn, read⟩⟩ := readListed_ok read
  · obtain ⟨shorter, part⟩ := first _ a c₁ came
    have less := (skipped_unified front closes 0).1
    rw [left]
    refine ⟨Nat.lt_trans less shorter, fun fuel offset enough => ?_⟩
    obtain ⟨fuel, rfl⟩ : ∃ n, fuel = n + 1 := ⟨fuel - 1, by omega⟩
    obtain ⟨o, again⟩ := part fuel offset (by omega)
    obtain ⟨-, o', skipped⟩ := skipped_unified front closes o
    exact ⟨o' + 1, by rw [listed, readListed_close again skipped]⟩
  · obtain ⟨shorter, part⟩ := first _ a c₁ came
    have less := (skipped_unified front (by decide) 0).1
    have spaces := length_dropSpace_le rest
    rw [skipSpace_eq] at read
    obtain ⟨shorter', more⟩ := others a _ _ _ read
    dsimp only at shorter' more
    refine ⟨by omega, fun fuel offset enough => ?_⟩
    obtain ⟨fuel, rfl⟩ : ∃ n, fuel = n + 1 := ⟨fuel - 1, by omega⟩
    obtain ⟨o, again⟩ := part fuel offset (by omega)
    obtain ⟨-, o', skipped⟩ := skipped_unified front (by decide) o
    obtain ⟨o'', skipped'⟩ := skipSpace_unified rest (o' + 1)
    rw [listed, readListed_comma again skipped goesOn, skipped']
    exact more fuel o'' (by omega)

theorem readField_persists {fuel : Nat} (value : Persists (readValue fuel) readValue) :
    Persists (readField fuel) readField := by
  rintro ⟨cs, off⟩ ⟨n, v⟩ c' read
  obtain ⟨tail, ts, c₁, rest, o, rfl, named, front, rfl, came⟩ := readField_ok read
  obtain ⟨shorter, again⟩ := value _ _ _ came
  dsimp only at shorter again ⊢
  have name := (readText_unified named off (off + 1)).1
  have less := (skipped_unified front (by decide) 0).1
  have spaces := length_dropSpace_le rest
  rw [length_unified_cons tail (by decide)]
  refine ⟨by omega, fun fuel' offset enough => ?_⟩
  obtain ⟨-, o, text⟩ := readText_unified named offset (offset + 1)
  obtain ⟨-, o', skipped⟩ := skipped_unified front (by decide) o
  obtain ⟨o'', skipped'⟩ := skipSpace_unified rest (o' + 1)
  obtain ⟨o₃, value⟩ := again fuel' o'' (by omega)
  refine ⟨o₃, ?_⟩
  rw [unifyNewlines_cons tail (by decide), readField_quote, text]
  dsimp only
  rw [skipped]
  dsimp only
  rw [if_pos List.head?_cons, advance_one, skipped', value]
  rfl

/-- A list or an object has no parts, or parts that are read again. -/
theorem readOpened_persists {read : Cursor → Except Stop (Json × Cursor)}
    {again : Nat → Cursor → Except Stop (Json × Cursor)} {close : Char} {empty : Json}
    (closes : close ≠ '\n' ∧ close ≠ '\r') (listed : Persists read again) :
    Persists (readOpened read close empty) fun fuel => readOpened (again fuel) close empty := by
  intro c v c' came
  have spaces := length_dropSpace_le c.rest
  rcases readOpened_ok came with ⟨rfl, front⟩ | ⟨open', read⟩
  · have less := (skipped_unified front closes.2 0).1
    refine ⟨less, fun fuel offset _ => ?_⟩
    obtain ⟨-, o, skipped⟩ := skipped_unified front closes.2 offset
    exact ⟨o + 1, readOpened_close skipped⟩
  · rw [skipSpace_eq] at read
    obtain ⟨shorter, again⟩ := listed _ _ _ read
    dsimp only at shorter again
    refine ⟨by omega, fun fuel offset enough => ?_⟩
    obtain ⟨o, skipped⟩ := skipSpace_unified c.rest offset
    have still : (Cursor.skipSpace ⟨unifyNewlines c.rest, offset⟩).rest.head? ≠ some close := by
      rw [skipped, Ne, ← beq_iff_eq, head?_unifyNewlines closes.1 closes.2, beq_iff_eq]
      exact open'
    dsimp only
    rw [readOpened_parts still, skipped]
    exact again fuel o (by omega)

/-- What is read behind a mark takes one less of the fuel. -/
theorem marked_persists {mark : Char} {fuel : Nat}
    {again : Nat → Cursor → Except Stop (Json × Cursor)} (plain : mark ≠ '\r')
    (marked : ∀ fuel offset rest,
      readValue (fuel + 1) ⟨mark :: rest, offset⟩ = again fuel ⟨rest, offset + 1⟩)
    (inside : Persists (again fuel) again) {tail : List Char} {offset : Nat} {v : Json} {c' : Cursor}
    (read : readValue (fuel + 1) ⟨mark :: tail, offset⟩ = .ok (v, c')) :
    (unifyNewlines c'.rest).length < (unifyNewlines (mark :: tail)).length ∧
    ∀ fuel offset, (unifyNewlines (mark :: tail)).length ≤ fuel + (unifyNewlines c'.rest).length →
      ∃ offset', readValue fuel ⟨unifyNewlines (mark :: tail), offset⟩ =
        .ok (v, ⟨unifyNewlines c'.rest, offset'⟩) := by
  rw [marked] at read
  obtain ⟨shorter, again⟩ := inside _ v c' read
  dsimp only at shorter again
  rw [length_unified_cons tail plain, unifyNewlines_cons tail plain]
  refine ⟨by omega, fun fuel offset enough => ?_⟩
  obtain ⟨fuel, rfl⟩ : ∃ n, fuel = n + 1 := ⟨fuel - 1, by omega⟩
  rw [marked]
  exact again fuel (offset + 1) (by omega)

theorem quoted_persists {fuel offset : Nat} {tail : List Char} {v : Json} {c' : Cursor}
    (read : readValue (fuel + 1) ⟨'"' :: tail, offset⟩ = .ok (v, c')) :
    (unifyNewlines c'.rest).length < (unifyNewlines ('"' :: tail)).length ∧
      ∀ fuel offset, ∃ offset', readValue (fuel + 1) ⟨unifyNewlines ('"' :: tail), offset⟩ =
        .ok (v, ⟨unifyNewlines c'.rest, offset'⟩) := by
  obtain ⟨ts, text, rfl⟩ := readText_of_readValue read
  have shorter := (readText_unified text offset (offset + 1)).1
  rw [length_unified_cons tail (by decide)]
  refine ⟨by omega, fun fuel offset => ?_⟩
  obtain ⟨-, o, text⟩ := readText_unified text offset (offset + 1)
  refine ⟨o, ?_⟩
  rw [unifyNewlines_cons tail (by decide), readValue_quote, text]
  rfl

/-- No text, list or object starts where none did. -/
theorem unopened_unified {cs : List Char} (plain : ∀ x ∈ cs.head?, x ≠ '"' ∧ x ≠ '[' ∧ x ≠ '{') :
    ∀ x ∈ (unifyNewlines cs).head?, x ≠ '"' ∧ x ≠ '[' ∧ x ≠ '{' := by
  have same {d : Char} (newline : d ≠ '\n') (return' : d ≠ '\r')
      (there : d ∈ (unifyNewlines cs).head?) : d ∈ cs.head? := by
    have front := head?_unifyNewlines newline return' cs
    rw [there] at front
    simpa using front.symm
  intro x hx
  refine ⟨?_, ?_, ?_⟩
  · rintro rfl
    exact (plain _ (same (by decide) (by decide) hx)).1 rfl
  · rintro rfl
    exact (plain _ (same (by decide) (by decide) hx)).2.1 rfl
  · rintro rfl
    exact (plain _ (same (by decide) (by decide) hx)).2.2 rfl

/-- By cases on the first character. -/
theorem readValue_persists {fuel : Nat}
    (items : Persists (readItems fuel []) fun f => readItems f [])
    (fields : Persists (readFields fuel []) fun f => readFields f []) :
    Persists (readValue (fuel + 1)) readValue := by
  rintro ⟨cs, off⟩ v c' read
  obtain ⟨tail, rfl⟩ | ⟨tail, rfl⟩ | ⟨tail, rfl⟩ | plain := mark_cases cs
  · obtain ⟨shorter, again⟩ := quoted_persists read
    refine ⟨shorter, fun fuel' offset enough => ?_⟩
    dsimp only at enough
    obtain ⟨fuel', rfl⟩ : ∃ n, fuel' = n + 1 := ⟨fuel' - 1, by omega⟩
    exact again fuel' offset
  · exact marked_persists (by decide) readValue_items (readOpened_persists (by decide) items) read
  · exact marked_persists (by decide) readValue_fields (readOpened_persists (by decide) fields) read
  · rw [readValue_atom plain] at read
    obtain ⟨shorter, again⟩ := readAtom_persists _ _ _ read
    dsimp only at shorter again
    refine ⟨shorter, fun fuel' offset enough => ?_⟩
    dsimp only at enough
    obtain ⟨fuel', rfl⟩ : ∃ n, fuel' = n + 1 := ⟨fuel' - 1, by omega⟩
    rw [readValue_atom (unopened_unified plain)]
    exact again (unifyNewlines cs).length offset (by omega)

/-- By induction on the fuel. -/
theorem reader_persists (fuel : Nat) : Persists (readValue fuel) readValue ∧
    (∀ done, Persists (readItems fuel done) fun f => readItems f done) ∧
    ∀ done, Persists (readFields fuel done) fun f => readFields f done := by
  induction fuel with
  | zero =>
    refine ⟨fun c v c' read => ?_, fun done c v c' read => ?_, fun done c v c' read => ?_⟩
    · rw [readValue] at read
      cases read
    · rw [readItems] at read
      cases read
    · rw [readFields] at read
      cases read
  | succ fuel ih =>
    obtain ⟨value, items, fields⟩ := ih
    refine ⟨readValue_persists (items []) (fields []), fun done => ?_, fun done => ?_⟩
    · intro c v c' read
      rw [readItems_succ] at read
      exact listed_persists (by decide) value (fun v => items (done ++ [v]))
        (fun f c => readItems_succ f done c) c v c' read
    · intro c v c' read
      rw [readFields_succ] at read
      exact listed_persists (by decide) (readField_persists value)
        (fun f => fields (setNamed done f.1 f.2)) (fun f c => readFields_succ f done c) c v c' read

/-! ## Documents -/

theorem readChars_unified {cs : List Char} {v : Json} (read : readChars cs = .ok v) :
    readChars (unifyNewlines cs) = .ok v := by
  obtain ⟨unmarked, o, c, came, spent⟩ := readChars_ok read
  unfold readChars
  rw [head?_unifyNewlines (by decide) (by decide), if_neg unmarked]
  obtain ⟨shorter, again⟩ := (reader_persists _).1 _ _ _ came
  dsimp only at shorter again
  have spaces := length_dropSpace_le cs
  obtain ⟨o, skipped⟩ := skipSpace_unified cs 0
  obtain ⟨o', value⟩ := again (2 * (unifyNewlines cs).length + 2) o (by omega)
  obtain ⟨o'', skipped'⟩ := skipSpace_unified c.rest o'
  rw [skipped, value]
  dsimp only
  rw [skipped', spent]
  rfl

/-- A document that is read is read as the same with its newlines unified. -/
theorem read_unified {s : String} {v : Json} (h : read s = .ok v) :
    read (String.ofList (unifyNewlines s.toList)) = .ok v := by
  rw [read, String.toList_ofList, readChars_unified (readChars_of_read h)]

end LintHub.Json
