import LintHub.Proofs.Json.Reading
import LintHub.Proofs.Text.Newlines

/-! # Tokens and line ends

A carriage return stands in a document as white space only. White space, text in quotes, words and
numbers are read as the same from a text with unified newlines, and what they leave is the unified
rest.
-/

namespace LintHub.Json

open Text (unifyNewlines unifyNewlines_cons unifyNewlines_append unifyNewlines_eq_nil
  length_unifyNewlines_le head?_unifyNewlines takeWhile_unifyNewlines dropWhile_unifyNewlines)

/-! ## Fronts without carriage returns -/

section
variable {cs : List Char} {n : Nat}

/-- A front without carriage returns stays as it is. -/
theorem unified_front (h : '\r' ∉ cs.take n) :
    unifyNewlines cs = cs.take n ++ unifyNewlines (cs.drop n) := by
  rw [← unifyNewlines_append h, List.take_append_drop]

theorem take_unified (h : '\r' ∉ cs.take n) : (unifyNewlines cs).take n = cs.take n := by
  rw [unified_front h]
  rcases Nat.le_total n cs.length with inside | past
  · exact List.take_left' (by rw [List.length_take, Nat.min_eq_left inside])
  · rw [List.drop_eq_nil_of_le past, List.take_of_length_le past, unifyNewlines, List.append_nil,
      List.take_of_length_le past]

theorem drop_unified (h : '\r' ∉ cs.take n) :
    (unifyNewlines cs).drop n = unifyNewlines (cs.drop n) := by
  rw [unified_front h]
  rcases Nat.le_total n cs.length with inside | past
  · exact List.drop_left' (by rw [List.length_take, Nat.min_eq_left inside])
  · rw [List.drop_eq_nil_of_le past, List.take_of_length_le past, unifyNewlines, List.append_nil,
      List.drop_eq_nil_of_le past]

theorem length_unified (h : '\r' ∉ cs.take n) (inside : n ≤ cs.length) :
    (unifyNewlines cs).length = n + (unifyNewlines (cs.drop n)).length := by
  rw [unified_front h, List.length_append, List.length_take, Nat.min_eq_left inside]

/-- More than a front without carriage returns is still more. -/
theorem lt_length_unified (h : '\r' ∉ cs.take n) (more : n < cs.length) :
    n < (unifyNewlines cs).length := by
  have rest : unifyNewlines (cs.drop n) ≠ [] := by
    rw [Ne, unifyNewlines_eq_nil, List.drop_eq_nil_iff]
    omega
  have some := List.length_pos_iff.mpr rest
  rw [length_unified h (Nat.le_of_lt more)]
  omega

end

/-! ## White space -/

theorem skipSpace_unified (cs : List Char) (offset : Nat) :
    ∃ offset', Cursor.skipSpace ⟨unifyNewlines cs, offset⟩ =
      ⟨unifyNewlines (cs.dropWhile isSpace), offset'⟩ := by
  rw [skipSpace_eq]
  exact ⟨_, by rw [dropWhile_unifyNewlines rfl rfl]⟩

theorem length_dropSpace_le (cs : List Char) :
    (unifyNewlines (cs.dropWhile isSpace)).length ≤ (unifyNewlines cs).length := by
  rw [← dropWhile_unifyNewlines rfl rfl]
  exact (List.dropWhile_sublist _).length_le

/-! ## Text -/

theorem unreturned_hexQuad {quad : List Char} {n : Nat} (h : hexQuad? quad = some n) :
    '\r' ∉ quad := fun mem => absurd ((hexQuad?_some h).2.2 _ mem) (by decide)

/-- The four digits of an escape and what follows them. -/
theorem escape_unified {rest : List Char} {code : Nat} (long : ¬ rest.length < 5)
    (digits : hexQuad? (rest.take 4) = some code) :
    ¬ (unifyNewlines rest).length < 5 ∧ hexQuad? ((unifyNewlines rest).take 4) = some code ∧
      (unifyNewlines rest).drop 4 = unifyNewlines (rest.drop 4) ∧
      (unifyNewlines (rest.drop 4)).length ≤ (unifyNewlines rest).length := by
  have plain := unreturned_hexQuad digits
  have more := lt_length_unified plain (by omega)
  refine ⟨by omega, by rwa [take_unified plain], drop_unified plain, ?_⟩
  rw [length_unified plain (by omega)]
  omega

/-- A second escape, its digits and what follows them. -/
theorem second_unified {after : List Char} {code : Nat} (follows : escapeFollows after = true)
    (digits : hexQuad? ((after.drop 2).take 4) = some code) :
    escapeFollows (unifyNewlines after) = true ∧
      hexQuad? (((unifyNewlines after).drop 2).take 4) = some code ∧
      (unifyNewlines after).drop 6 = unifyNewlines (after.drop 6) ∧
      (unifyNewlines (after.drop 6)).length ≤ (unifyNewlines after).length := by
  simp only [escapeFollows, Bool.and_eq_true, decide_eq_true_eq, beq_iff_eq] at follows ⊢
  obtain ⟨long, front⟩ := follows
  have mark : '\r' ∉ after.take 2 := by
    rw [front]
    decide
  have quad := unreturned_hexQuad digits
  have plain : '\r' ∉ after.take (2 + 4) := not_mem_take_add mark quad
  refine ⟨⟨lt_length_unified plain long, by rw [take_unified mark, front]⟩, ?_,
    drop_unified plain, ?_⟩
  · rw [drop_unified mark, take_unified quad, digits]
  · show (unifyNewlines (after.drop (2 + 4))).length ≤ _
    rw [length_unified plain (Nat.le_of_lt long)]
    omega

/-- A character in front that is no newline was there before. -/
theorem of_unified_cons {cs ds : List Char} {d : Char} (h : unifyNewlines cs = d :: ds)
    (other : d ≠ '\n') : ∃ tail, cs = d :: tail ∧ unifyNewlines tail = ds := by
  cases cs with
  | nil => cases h
  | cons c tail =>
    by_cases same : c = '\r'
    · subst same
      have front : (unifyNewlines ('\r' :: tail)).head? = some '\n' := by
        cases tail with
        | nil => rfl
        | cons x tail =>
          by_cases newline : x = '\n'
          · subst newline
            rfl
          · rw [unifyNewlines]
            · rfl
            · rintro cs - eq
              cases eq
              exact newline rfl
      rw [h] at front
      exact absurd (Option.some.inj front) other
    · rw [unifyNewlines_cons _ same] at h
      cases h
      exact ⟨tail, rfl, rfl⟩

theorem escapeFollows_of_unified {after : List Char}
    (follows : escapeFollows (unifyNewlines after) = true) : escapeFollows after = true := by
  simp only [escapeFollows, Bool.and_eq_true, decide_eq_true_eq, beq_iff_eq] at follows ⊢
  obtain ⟨long, front⟩ := follows
  have shrinks := length_unifyNewlines_le after
  refine ⟨by omega, ?_⟩
  cases whole : unifyNewlines after with
  | nil =>
    rw [whole] at front
    cases front
  | cons c cs =>
    cases cs with
    | nil =>
      rw [whole] at front
      cases front
    | cons d cs =>
      rw [whole] at front
      cases front
      obtain ⟨tail, rfl, rest⟩ := of_unified_cons whole (by decide)
      obtain ⟨tail, rfl, -⟩ := of_unified_cons rest (by decide)
      rfl

/-- No second half comes to follow where none did. -/
theorem Alone.unified {code : Nat} {after : List Char} (alone : Alone code after) :
    Alone code (unifyNewlines after) := by
  by_cases follows : escapeFollows (unifyNewlines after) = true
  · rcases alone with single | ⟨next, second, notLow⟩
    · refine .inl fun both => single ?_
      rw [Bool.and_eq_true] at both ⊢
      exact ⟨both.1, escapeFollows_of_unified both.2⟩
    · exact .inr ⟨next, (second_unified (escapeFollows_of_unified follows) second).2.1, notLow⟩
  · exact .inl fun both => follows (Bool.and_eq_true_iff.mp both).2

/-- A character is taken from the text with unified newlines too, since none of its forms holds a line
end. -/
theorem Takes.unified {cs rest : List Char} {c : Char} (takes : Takes cs c rest) :
    Takes (unifyNewlines cs) c (unifyNewlines rest) ∧
      (unifyNewlines rest).length < (unifyNewlines cs).length := by
  cases takes with
  | plain quote slash printed =>
    have plain : c ≠ '\r' := by
      rintro rfl
      exact absurd printed (by decide)
    rw [unifyNewlines_cons _ plain]
    exact ⟨.plain quote slash printed, Nat.lt_succ_self _⟩
  | @letter e _ _ escape =>
    have plain : e ≠ '\r' := by
      rintro rfl
      cases escape
    rw [unifyNewlines_cons _ (by decide), unifyNewlines_cons _ plain]
    exact ⟨.letter escape, by simp only [List.length_cons]; omega⟩
  | @code tail code long digits alone =>
    obtain ⟨long', digits', after, shrinks⟩ := escape_unified long digits
    have alone' := alone.unified
    rw [← after] at alone' shrinks ⊢
    rw [unifyNewlines_cons _ (by decide), unifyNewlines_cons _ (by decide)]
    exact ⟨.code long' digits' alone', by simp only [List.length_cons]; omega⟩
  | @halves tail high low long digits follows second isLow =>
    obtain ⟨long', digits', after, shrinks⟩ := escape_unified long digits
    rw [Bool.and_eq_true] at follows
    obtain ⟨follows', second', rest, shrinks'⟩ := second_unified follows.2 second
    rw [List.drop_drop] at rest shrinks'
    rw [← after] at follows' second' rest
    rw [List.drop_drop] at rest
    have shorter := Nat.le_trans shrinks' shrinks
    rw [← rest, unifyNewlines_cons _ (by decide), unifyNewlines_cons _ (by decide)]
    refine ⟨.halves long' digits' (Bool.and_eq_true_iff.mpr ⟨follows.1, follows'⟩) second' isLow, ?_⟩
    rw [rest]
    simp only [List.length_cons]
    omega

theorem Quoted.unified {cs chars rest : List Char} (quoted : Quoted Takes cs chars rest) :
    Quoted Takes (unifyNewlines cs) chars (unifyNewlines rest) ∧
      (unifyNewlines rest).length < (unifyNewlines cs).length := by
  induction quoted with
  | close =>
    rw [unifyNewlines_cons _ (by decide)]
    exact ⟨.close, Nat.lt_succ_self _⟩
  | next first _ ih =>
    obtain ⟨takes, shorter⟩ := first.unified
    exact ⟨.next takes ih.1, Nat.lt_trans ih.2 shorter⟩

/-- Text in quotes is read as the same, since no control character stands in it. -/
theorem readText_unified {start offset : Nat} {done cs ts : List Char} {c : Cursor}
    (read : readText start offset done cs = .ok (ts, c)) (start' offset' : Nat) :
    (unifyNewlines c.rest).length < (unifyNewlines cs).length ∧
      ∃ offset'', readText start' offset' done (unifyNewlines cs) =
        .ok (ts, ⟨unifyNewlines c.rest, offset''⟩) := by
  obtain ⟨chars, rfl, quoted⟩ := quoted_of_readText read
  obtain ⟨again, shorter⟩ := quoted.unified
  exact ⟨shorter, again.read start' offset' done⟩

/-! ## Words -/

theorem isPrefixOf_unified {w : List Char} (plain : ∀ x ∈ w, x ≠ '\n' ∧ x ≠ '\r') (cs : List Char) :
    w.isPrefixOf (unifyNewlines cs) = w.isPrefixOf cs := by
  induction w generalizing cs with
  | nil => cases unifyNewlines cs <;> cases cs <;> rfl
  | cons x w ih =>
    rw [List.forall_mem_cons] at plain
    cases cs with
    | nil => rfl
    | cons c cs =>
      by_cases same : c = '\r'
      · subst same
        have other : (x :: w).isPrefixOf ('\r' :: cs) = false := by
          simp [List.isPrefixOf, plain.1.2]
        rw [other]
        cases whole : unifyNewlines ('\r' :: cs) with
        | nil => rfl
        | cons d ds =>
          have front : d ≠ x := by
            rintro rfl
            obtain ⟨tail, eq, -⟩ := of_unified_cons whole plain.1.1
            exact plain.1.2 (List.cons.inj eq).1.symm
          simp [List.isPrefixOf, front.symm]
      · rw [unifyNewlines_cons _ same]
        simp only [List.isPrefixOf, ih plain.2]

theorem words_plain : ∀ w ∈ words, ∀ x ∈ w.1, x ≠ '\n' ∧ x ≠ '\r' := by
  simp [words]

theorem words_find?_unified (cs : List Char) :
    (words.find? fun w => w.1.isPrefixOf (unifyNewlines cs)) =
      words.find? fun w => w.1.isPrefixOf cs := by
  have each : ∀ ws : List (List Char × Json), (∀ w ∈ ws, ∀ x ∈ w.1, x ≠ '\n' ∧ x ≠ '\r') →
      (ws.find? fun w => w.1.isPrefixOf (unifyNewlines cs)) =
        ws.find? fun w => w.1.isPrefixOf cs := by
    intro ws plain
    induction ws with
    | nil => rfl
    | cons w ws ih =>
      rw [List.forall_mem_cons] at plain
      rw [List.find?_cons, List.find?_cons, isPrefixOf_unified plain.1, ih plain.2]
  exact each words words_plain

/-! ## Numbers -/

theorem isForeign_return : IsForeign '\r' := by decide

theorem wholeOf_unified (cs : List Char) : wholeOf (unifyNewlines cs) = wholeOf cs := by
  unfold wholeOf
  rw [head?_unifyNewlines (by decide) (by decide), takeWhile_unifyNewlines rfl rfl]

theorem fractionOf_unified (cs : List Char) : fractionOf (unifyNewlines cs) = fractionOf cs := by
  unfold fractionOf
  rw [head?_unifyNewlines (by decide) (by decide)]
  split
  · next point =>
    rw [drop_unified (not_mem_take_one point (by decide)), takeWhile_unifyNewlines rfl rfl]
  · rfl

theorem hasSign_unified (cs : List Char) : hasSign (unifyNewlines cs) = hasSign cs := by
  unfold hasSign
  rw [head?_unifyNewlines (by decide) (by decide), head?_unifyNewlines (by decide) (by decide)]

theorem signedDigits_unified (cs : List Char) :
    signedDigits (unifyNewlines cs) = signedDigits cs := by
  unfold signedDigits
  rw [hasSign_unified]
  split
  · next sign => rw [drop_unified (hasSign_front isForeign_return sign), takeWhile_unifyNewlines rfl rfl]
  · exact takeWhile_unifyNewlines rfl rfl cs

theorem exponentOf_unified (cs : List Char) : exponentOf (unifyNewlines cs) = exponentOf cs := by
  unfold exponentOf
  rw [head?_unifyNewlines (by decide) (by decide), head?_unifyNewlines (by decide) (by decide)]
  split
  · next mark =>
    dsimp only
    rw [drop_unified (mark_front isForeign_return mark), signedDigits_unified, hasSign_unified,
      head?_unifyNewlines (by decide) (by decide)]
  · rfl

theorem unsignedParts?_unified (negative : Bool) (cs : List Char) :
    unsignedParts? negative (unifyNewlines cs) = unsignedParts? negative cs := by
  unfold unsignedParts?
  dsimp only
  rw [wholeOf_unified, drop_unified (wholeOf_front isForeign_return cs), fractionOf_unified,
    drop_unified (fractionOf_front isForeign_return _), exponentOf_unified]

theorem numberParts?_unified (cs : List Char) : numberParts? (unifyNewlines cs) = numberParts? cs := by
  rw [numberParts?_eq, numberParts?_eq, head?_unifyNewlines (by decide) (by decide)]
  split
  · next sign => rw [drop_unified (not_mem_take_one sign (by decide)), unsignedParts?_unified]
  · exact unsignedParts?_unified _ cs

theorem atom?_unified (cs : List Char) : atom? (unifyNewlines cs) = atom? cs := by
  unfold atom?
  rw [words_find?_unified, numberParts?_unified]

end LintHub.Json
