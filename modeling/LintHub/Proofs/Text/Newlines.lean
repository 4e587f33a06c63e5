import LintHub.Text.Lines

/-! # Unified newlines

What unifying the newlines of a text leaves as it is: everything without a carriage return, and
everything that is said of a text without looking at its line ends.
-/

namespace LintHub.Text

theorem unifyNewlines_cons {c : Char} (cs : List Char) (h : c ≠ '\r') :
    unifyNewlines (c :: cs) = c :: unifyNewlines cs := by
  rw [unifyNewlines, if_neg (by simpa using h)]
  rintro cs rfl
  exact (h rfl).elim

theorem unifyNewlines_append {t : List Char} (h : '\r' ∉ t) (rest : List Char) :
    unifyNewlines (t ++ rest) = t ++ unifyNewlines rest := by
  induction t with
  | nil => rfl
  | cons c t ih =>
    rw [List.mem_cons, not_or] at h
    rw [List.cons_append, unifyNewlines_cons _ (Ne.symm h.1), ih h.2, List.cons_append]

theorem unifyNewlines_of_unreturned {cs : List Char} (h : '\r' ∉ cs) : unifyNewlines cs = cs := by
  have whole := unifyNewlines_append h []
  rwa [List.append_nil, unifyNewlines, List.append_nil] at whole

theorem length_unifyNewlines_le (cs : List Char) : (unifyNewlines cs).length ≤ cs.length := by
  fun_induction unifyNewlines cs with
  | case1 => exact Nat.le_refl _
  | case2 cs ih =>
    simp only [List.length_cons]
    omega
  | case3 c cs _ ih =>
    simp only [List.length_cons]
    omega

theorem unifyNewlines_eq_nil {cs : List Char} : unifyNewlines cs = [] ↔ cs = [] := by
  constructor
  · intro h
    fun_induction unifyNewlines cs with
    | case1 => rfl
    | case2 => cases h
    | case3 => cases h
  · rintro rfl
    rfl

/-- Whether a character that ends no line stands in front. -/
theorem head?_unifyNewlines {d : Char} (newline : d ≠ '\n') (return' : d ≠ '\r') (cs : List Char) :
    ((unifyNewlines cs).head? == some d) = (cs.head? == some d) := by
  have newline : ('\n' == d) = false := beq_eq_false_iff_ne.mpr (Ne.symm newline)
  have return' : ('\r' == d) = false := beq_eq_false_iff_ne.mpr (Ne.symm return')
  fun_induction unifyNewlines cs with
  | case1 => rfl
  | case2 => simp [newline, return']
  | case3 c cs _ ih =>
    by_cases h : c = '\r'
    · subst h
      simp [newline, return']
    · simp [h]

/-- The characters of a kind in front, if those that end lines are not of it. -/
theorem takeWhile_unifyNewlines {p : Char → Bool} (newline : p '\n' = false)
    (return' : p '\r' = false) (cs : List Char) :
    (unifyNewlines cs).takeWhile p = cs.takeWhile p := by
  fun_induction unifyNewlines cs with
  | case1 => rfl
  | case2 => simp [newline, return']
  | case3 c cs _ ih =>
    by_cases h : c = '\r'
    · subst h
      simp [newline, return']
    · simp [h, List.takeWhile_cons, ih]

/-- The text behind a blank front, if those that end lines are blank. -/
theorem dropWhile_unifyNewlines {p : Char → Bool} (newline : p '\n' = true)
    (return' : p '\r' = true) (cs : List Char) :
    (unifyNewlines cs).dropWhile p = unifyNewlines (cs.dropWhile p) := by
  fun_induction unifyNewlines cs with
  | case1 => rfl
  | case2 cs ih => simp [newline, return', ih]
  | case3 c cs _ ih =>
    by_cases h : c = '\r'
    · subst h
      simp [newline, return', ih]
    · by_cases blank : p c = true
      · simp [h, blank, ih]
      · simp [h, blank, unifyNewlines_cons]

end LintHub.Text
