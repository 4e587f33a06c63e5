import LintHub.Files.Disk
import LintHub.Proofs.Files.OutputPath

/-! # Texts of paths

A path that comes from a text goes back to it, and its parts are the steps of the text without those
that stay in place.
-/

namespace LintHub

namespace Path

theorem splitSteps_append {step rest : List Char} (slashless : '/' ∉ step) :
    splitSteps (step ++ '/' :: rest) = step :: splitSteps rest := by
  induction step with
  | nil => rw [List.nil_append, splitSteps, if_pos rfl]
  | cons c cs ih =>
    rw [List.mem_cons, not_or] at slashless
    rw [List.cons_append, splitSteps, if_neg (Ne.symm slashless.1), ih slashless.2]

theorem splitSteps_slashes (n : Nat) (cs : List Char) :
    splitSteps (List.replicate n '/' ++ cs) = List.replicate n [] ++ splitSteps cs := by
  induction n with
  | zero => rfl
  | succ n ih =>
    rw [List.replicate_succ, List.cons_append, splitSteps, if_pos rfl, ih]
    rfl

theorem splitSteps_intercalate {steps : List (List Char)} (slashless : ∀ step ∈ steps, '/' ∉ step)
    (some : steps ≠ []) : splitSteps (['/'].intercalate steps) = steps := by
  induction steps with
  | nil => exact (some rfl).elim
  | cons step steps ih =>
    rw [List.forall_mem_cons] at slashless
    cases steps with
    | nil => rw [List.intercalate_singleton, splitSteps_of_slashless slashless.1]
    | cons next steps =>
      rw [List.intercalate_cons_cons, List.append_assoc, List.singleton_append,
        splitSteps_append slashless.1, ih slashless.2 (by simp)]

/-- The steps of a path as they come from a text. -/
structure Normal (p : Path) : Prop where
  slashes : p.slashes ≤ 2
  slashless : ∀ part ∈ p.parts, '/' ∉ part.toList
  step : ∀ part ∈ p.parts, isStep part.toList = true

theorem normal_ofText (s : String) : (ofText s).Normal where
  slashes := by
    unfold ofText
    dsimp only
    split <;> omega
  slashless part h := by
    obtain ⟨cs, mem, rfl⟩ := List.mem_map.mp h
    rw [String.toList_ofList]
    exact splitSteps_slashless (List.mem_filter.mp mem).1
  step part h := by
    obtain ⟨cs, mem, rfl⟩ := List.mem_map.mp h
    rw [String.toList_ofList]
    exact (List.mem_filter.mp mem).2

theorem Normal.takeWhile_slash {p : Path} (h : p.Normal) :
    (['/'].intercalate (p.parts.map String.toList)).takeWhile (· == '/') = [] := by
  cases parts : p.parts with
  | nil => rfl
  | cons part rest =>
    have slashless := h.slashless part (by rw [parts]; exact List.mem_cons_self ..)
    have step := h.step part (by rw [parts]; exact List.mem_cons_self ..)
    cases text : part.toList with
    | nil =>
      rw [text] at step
      cases step
    | cons c cs =>
      rw [text, List.mem_cons, not_or] at slashless
      have front : ∃ tail, ['/'].intercalate ((c :: cs) :: rest.map String.toList) = c :: tail := by
        cases rest with
        | nil => exact ⟨cs, by simp⟩
        | cons next rest => exact ⟨_, by rw [List.map_cons, List.intercalate_cons_cons]; rfl⟩
      obtain ⟨tail, eq⟩ := front
      rw [List.map_cons, text, eq, List.takeWhile_cons, if_neg (by simpa using Ne.symm slashless.1)]

theorem Normal.ofText_text {p : Path} (h : p.Normal) : ofText p.text = p := by
  obtain ⟨slashes, parts⟩ := p
  unfold text
  split
  · next empty =>
    simp only [Bool.and_eq_true, decide_eq_true_eq, List.isEmpty_iff] at empty
    obtain ⟨rfl, rfl⟩ := empty
    rfl
  · next given =>
    have chars : (String.ofList (List.replicate slashes '/') ++ String.intercalate "/" parts).toList =
        List.replicate slashes '/' ++ ['/'].intercalate (parts.map String.toList) := by
      simp [String.toList_intercalate]
    have leading : ((List.replicate slashes '/' ++
        ['/'].intercalate (parts.map String.toList)).takeWhile (· == '/')).length = slashes := by
      rw [List.takeWhile_append_of_pos (by simp), h.takeWhile_slash, List.append_nil,
        List.length_replicate]
    have steps : (splitSteps (List.replicate slashes '/' ++
        ['/'].intercalate (parts.map String.toList))).filter isStep = parts.map String.toList := by
      have none : (List.replicate slashes ([] : List Char)).filter isStep = [] := by
        simp [isStep]
      rw [splitSteps_slashes, List.filter_append, none, List.nil_append]
      cases parts with
      | nil => rfl
      | cons part parts =>
        rw [splitSteps_intercalate (by simpa using h.slashless) (by simp), List.filter_eq_self]
        simpa using h.step
    have small : slashes ≤ 2 := h.slashes
    unfold ofText
    simp only [chars, leading, steps, List.map_map]
    congr 1
    · split <;> omega
    · simp

theorem ofText_text (s : String) : ofText (ofText s).text = ofText s :=
  (normal_ofText s).ofText_text

theorem Normal.relative {p : Path} (h : p.Normal) : Normal ⟨0, p.parts⟩ where
  slashes := Nat.zero_le 2
  slashless := h.slashless
  step := h.step

theorem Normal.parent {p : Path} (h : p.Normal) : p.parent.Normal where
  slashes := h.slashes
  slashless part mem := h.slashless part (List.dropLast_subset _ mem)
  step part mem := h.step part (List.dropLast_subset _ mem)

/-! ## Steps of a text -/

theorem parts_ofText (s : String) : (ofText s).parts = (rawSteps s).filter (· != ".") := by
  have steps : (((splitSteps s.toList).filter (!·.isEmpty)).map String.ofList).filter (· != ".") =
      (ofText s).parts := by
    unfold ofText
    dsimp only
    rw [List.filter_map, List.filter_filter]
    congr 1
    refine List.filter_congr fun cs _ => ?_
    have dot : (String.ofList cs != ".") = (cs != ['.']) := by
      rw [Bool.eq_iff_iff, bne_iff_ne, bne_iff_ne, ne_eq, ne_eq, ← String.toList_inj,
        String.toList_ofList]
      rfl
    rw [Function.comp_apply, dot, isStep, Bool.and_comm]
  unfold rawSteps
  dsimp only
  split
  · rw [List.filter_append, steps]
    simp
  · exact steps.symm

theorem isAbsolute_ofText (s : String) : (ofText s).isAbsolute = startsAtRoot s := by
  unfold isAbsolute ofText startsAtRoot
  dsimp only
  cases s.toList with
  | nil => rfl
  | cons c cs =>
    by_cases slash : c = '/'
    · rw [slash, List.takeWhile_cons_of_pos (by decide), List.length_cons]
      split
      · rfl
      · simp
    · simp [slash]

theorem Normal.child {p : Path} {steps : List String} (h : p.Normal)
    (slashless : ∀ step ∈ steps, '/' ∉ step.toList)
    (step : ∀ step ∈ steps, isStep step.toList = true) : (p.child steps).Normal where
  slashes := h.slashes
  slashless part mem := (List.mem_append.mp mem).elim (h.slashless part) (slashless part)
  step part mem := (List.mem_append.mp mem).elim (h.step part) (step part)

end Path

/-! ## Null characters -/

theorem mem_intercalate {sep : List Char} {c : Char} (other : c ∉ sep) {ts : List (List Char)} :
    c ∈ sep.intercalate ts ↔ ∃ t ∈ ts, c ∈ t := by
  induction ts with
  | nil => simp
  | cons t ts ih =>
    cases ts with
    | nil => simp
    | cons u ts =>
      rw [List.intercalate_cons_cons, List.append_assoc, List.mem_append, List.mem_append, ih]
      simp [other]

namespace Path

/-- A path with a null character in one of its steps, which no file can have. -/
def IsNull (p : Path) : Prop :=
  ∃ part ∈ p.parts, '\x00' ∈ part.toList

theorem mem_splitSteps {cs : List Char} {c : Char} (other : c ≠ '/') :
    (∃ step ∈ splitSteps cs, c ∈ step) ↔ c ∈ cs := by
  induction cs with
  | nil => simp [splitSteps]
  | cons d cs ih =>
    rw [splitSteps]
    split
    · next slash =>
      simp [ih, slash, other]
    · split
      · next none =>
        rw [none] at ih
        rw [List.mem_cons, ← ih]
        simp
      · next first rest steps =>
        rw [steps] at ih
        rw [List.mem_cons, ← ih]
        simp [or_assoc]

theorem isNull_ofText {s : String} : (ofText s).IsNull ↔ '\x00' ∈ s.toList := by
  rw [← mem_splitSteps (by decide)]
  unfold IsNull ofText
  dsimp only
  constructor
  · rintro ⟨part, mem, null⟩
    obtain ⟨cs, kept, rfl⟩ := List.mem_map.mp mem
    rw [String.toList_ofList] at null
    exact ⟨cs, (List.mem_filter.mp kept).1, null⟩
  · rintro ⟨cs, mem, null⟩
    have step : isStep cs = true := by
      unfold isStep
      rw [Bool.and_eq_true, bne_iff_ne]
      constructor
      · cases cs with
        | nil => cases null
        | cons => rfl
      · rintro rfl
        simp at null
    exact ⟨String.ofList cs, List.mem_map_of_mem (List.mem_filter.mpr ⟨mem, step⟩),
      by rwa [String.toList_ofList]⟩

/-- The text of a path has the characters of its steps, besides slashes and points. -/
theorem mem_text {p : Path} {c : Char} (slash : c ≠ '/') (dot : c ≠ '.') :
    c ∈ p.text.toList ↔ ∃ part ∈ p.parts, c ∈ part.toList := by
  unfold text
  split
  · next empty =>
    simp only [Bool.and_eq_true, decide_eq_true_eq, List.isEmpty_iff] at empty
    simp [empty.2, dot]
  · rw [String.toList_append, String.toList_ofList, String.toList_intercalate, List.mem_append,
      mem_intercalate (by simpa using slash)]
    constructor
    · rintro (front | ⟨cs, mem, has⟩)
      · exact (slash (List.mem_replicate.mp front).2).elim
      · obtain ⟨part, found, rfl⟩ := List.mem_map.mp mem
        exact ⟨part, found, has⟩
    · rintro ⟨part, found, has⟩
      exact .inr ⟨_, List.mem_map_of_mem found, has⟩

theorem isNull_text {p : Path} : p.text.toList.contains '\x00' = true ↔ p.IsNull := by
  rw [List.contains_iff_mem]
  exact mem_text (by decide) (by decide)

/-- The steps of a text have no other characters than the text. -/
theorem mem_of_parts {s part : String} {c : Char} (slash : c ≠ '/') (mem : part ∈ (ofText s).parts)
    (has : c ∈ part.toList) : c ∈ s.toList := by
  obtain ⟨cs, kept, rfl⟩ := List.mem_map.mp mem
  rw [String.toList_ofList] at has
  exact (mem_splitSteps slash).mp ⟨cs, (List.mem_filter.mp kept).1, has⟩

theorem mem_of_rawSteps {s step : String} {c : Char} (slash : c ≠ '/') (dot : c ≠ '.')
    (mem : step ∈ rawSteps s) (has : c ∈ step.toList) : c ∈ s.toList := by
  have part : step ∈ (ofText s).parts := by
    rw [parts_ofText]
    refine List.mem_filter.mpr ⟨mem, ?_⟩
    rw [bne_iff_ne]
    rintro rfl
    exact dot (by simpa using has)
  exact mem_of_parts slash part has

theorem isNull_of_dropLast {p : Path} (h : IsNull { p with parts := p.parts.dropLast }) :
    p.IsNull := by
  obtain ⟨part, mem, null⟩ := h
  exact ⟨part, List.dropLast_subset _ mem, null⟩

end Path

end LintHub
