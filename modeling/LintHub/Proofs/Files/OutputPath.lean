import LintHub.Files.Path

/-! # Files of their own

When the report of a tool cannot get a file of its own.
-/

namespace LintHub

namespace Path

theorem splitSteps_slashless {cs step : List Char} (h : step ∈ splitSteps cs) : '/' ∉ step := by
  induction cs generalizing step with
  | nil =>
    rw [splitSteps, List.mem_singleton] at h
    subst h
    exact List.not_mem_nil
  | cons c cs ih =>
    rw [splitSteps] at h
    split at h
    · rcases List.mem_cons.mp h with rfl | h
      · exact List.not_mem_nil
      · exact ih h
    · next hc =>
      split at h
      · rw [List.mem_singleton] at h
        subst h
        rw [List.mem_singleton]
        exact Ne.symm hc
      · next s rest hs =>
        rcases List.mem_cons.mp h with rfl | h
        · rw [List.mem_cons, not_or]
          exact ⟨Ne.symm hc, ih (hs ▸ List.mem_cons_self ..)⟩
        · exact ih (hs ▸ List.mem_cons_of_mem _ h)

theorem splitSteps_of_slashless {cs : List Char} (h : '/' ∉ cs) : splitSteps cs = [cs] := by
  induction cs with
  | nil => rfl
  | cons c cs ih =>
    rw [List.mem_cons, not_or] at h
    rw [splitSteps, if_neg (Ne.symm h.1), ih h.2]

theorem ofText_of_slashless {s : String} (h : '/' ∉ s.toList) (step : isStep s.toList = true) :
    ofText s = ⟨0, [s]⟩ := by
  have leading : s.toList.takeWhile (· == '/') = [] := by
    cases hs : s.toList with
    | nil => rfl
    | cons c cs =>
      rw [hs, List.mem_cons, not_or] at h
      rw [List.takeWhile_cons, if_neg]
      simpa using Ne.symm h.1
  unfold ofText
  simp only [splitSteps_of_slashless h, leading]
  simp [step]

theorem text_of_slashless {s : String} (slashless : '/' ∉ s.toList)
    (step : isStep s.toList = true) : (ofText s).text = s := by
  rw [ofText_of_slashless slashless step]
  unfold text
  simp

theorem name_slashless (s : String) : '/' ∉ (ofText s).name.toList := by
  unfold name
  cases hl : (ofText s).parts.getLast? with
  | none => simp
  | some part =>
    have mem := List.mem_of_getLast? hl
    obtain ⟨cs, hcs, rfl⟩ := List.mem_map.mp mem
    simpa using splitSteps_slashless (List.mem_filter.mp hcs).1

theorem splitSuffix_chars {name : String} {c : Char}
    (h : c ∈ (splitSuffix name).1.toList ∨ c ∈ (splitSuffix name).2.toList) :
    c ∈ name.toList ∨ c = '.' := by
  unfold splitSuffix at h
  simp only at h
  split at h
  · rw [String.toList_ofList, String.toList_ofList, List.mem_cons] at h
    rcases h with h | h | h
    · exact .inl (List.mem_of_mem_take h)
    · exact .inr h
    · rw [List.mem_reverse] at h
      exact .inl (List.mem_reverse.mp ((List.takeWhile_prefix _).subset h))
  · rcases h with h | h
    · exact .inl h
    · simp at h

/-- The name of a report's own file is one step, unless the tool's name brings a slash along. -/
theorem withName_error_iff {p : Path} {name : String} {f : Fault} (slashless : '/' ∉ name.toList)
    (step : isStep name.toList = true) :
    p.withName name = .error f ↔ p.name = "" ∧ f = .emptyName p.text := by
  unfold withName
  rw [ofText_of_slashless slashless step]
  have ends : name.toList.getLast? ≠ some '/' := fun h => slashless (List.mem_of_getLast? h)
  by_cases empty : p.name = ""
  · rw [if_pos (by rw [empty]; rfl)]
    constructor
    · intro h
      cases h
      exact ⟨empty, rfl⟩
    · rintro ⟨-, rfl⟩
      rfl
  · rw [if_neg (by simpa using empty), if_neg (by simpa [isAbsolute] using ends)]
    constructor
    · intro h
      cases h
    · rintro ⟨absurd, -⟩
      exact (empty absurd).elim

end Path

/-- The name that the file of a tool's report gets. -/
def ownName (p : Path) (tool : String) : String :=
  p.stem ++ "_" ++ tool ++ p.suffix

theorem ownName_step (p : Path) (tool : String) : Path.isStep (ownName p tool).toList = true := by
  have mem : '_' ∈ (ownName p tool).toList := by
    unfold ownName
    simp
  unfold Path.isStep
  rw [Bool.and_eq_true]
  constructor
  · cases hl : (ownName p tool).toList with
    | nil =>
      rw [hl] at mem
      cases mem
    | cons c cs => rfl
  · rw [bne_iff_ne]
    intro dot
    rw [dot] at mem
    simp at mem

theorem ownName_slashless {s tool : String} (h : '/' ∉ tool.toList) :
    '/' ∉ (ownName (Path.ofText s) tool).toList := by
  have parts : ∀ t, (t = (Path.ofText s).stem ∨ t = (Path.ofText s).suffix) → '/' ∉ t.toList := by
    intro t ht mem
    have either : '/' ∈ (Path.splitSuffix (Path.ofText s).name).1.toList ∨
        '/' ∈ (Path.splitSuffix (Path.ofText s).name).2.toList := by
      rcases ht with rfl | rfl
      · exact .inl mem
      · exact .inr mem
    rcases Path.splitSuffix_chars either with mem | dot
    · exact Path.name_slashless s mem
    · simp at dot
  unfold ownName
  simp [h, parts _ (.inl rfl), parts _ (.inr rfl)]

/-- A path has no last step: it is made of slashes and of steps that stay in place. -/
theorem name_ofText_eq_empty_iff (s : String) :
    (Path.ofText s).name = "" ↔ ∀ step ∈ Path.splitSteps s.toList, Path.isStep step = false := by
  unfold Path.name Path.ofText
  dsimp only
  rw [List.getLast?_map]
  cases hl : ((Path.splitSteps s.toList).filter Path.isStep).getLast? with
  | none =>
    rw [List.getLast?_eq_none_iff, List.filter_eq_nil_iff] at hl
    simpa using hl
  | some step =>
    obtain ⟨mem, is⟩ := List.mem_filter.mp (List.mem_of_getLast? hl)
    constructor
    · intro empty
      have none : step = [] := by simpa using empty
      subst none
      cases is
    · intro no
      rw [no step mem] at is
      cases is

/-- A report cannot get a file of its own: none can be named, the path that is given has no last step,
or the tool's name breaks the last step up. -/
inductive NoFile (tool : String) : Json → Fault → Prop where
  | noText {v : Json} (given : v.isBlank = false) (other : ∀ s, v ≠ .str s) :
    NoFile tool v (.misused .path v.kind)
  | noName {s : String} (given : s ≠ "")
    (steps : ∀ step ∈ Path.splitSteps s.toList, Path.isStep step = false) :
    NoFile tool (.str s) (.emptyName (Path.ofText s).text)
  | slash {s : String} (given : s ≠ "") (slash : '/' ∈ tool.toList)
    (invalid : (Path.ofText s).withName (ownName (Path.ofText s) tool) =
      .error (.invalidName (ownName (Path.ofText s) tool))) :
    NoFile tool (.str s) (.invalidName (ownName (Path.ofText s) tool))

theorem toolOutputPath_text {s tool : String} (given : s ≠ "") :
    toolOutputPath (.str s) tool =
      ((Path.ofText s).withName (ownName (Path.ofText s) tool)).map fun q => .str q.text := by
  unfold toolOutputPath
  rw [if_neg (by simpa [Json.isBlank] using given)]
  show ((Path.ofText s).withName (ownName (Path.ofText s) tool) >>= fun q =>
    Except.ok (Json.str q.text)) = _
  cases (Path.ofText s).withName (ownName (Path.ofText s) tool) <;> rfl

theorem withName_error {p : Path} {name : String} {f : Fault} (h : p.withName name = .error f) :
    (p.name = "" ∧ f = .emptyName p.text) ∨ f = .invalidName name := by
  unfold Path.withName at h
  simp only at h
  split at h
  · next empty =>
    cases h
    exact .inl ⟨by simpa using empty, rfl⟩
  · split at h
    · cases h
      exact .inr rfl
    · cases h

theorem toolOutputPath_error_iff {tool : String} {output : Json} {f : Fault} :
    toolOutputPath output tool = .error f ↔ NoFile tool output f := by
  constructor
  · intro h
    by_cases text : ∃ s, output = .str s
    · obtain ⟨s, rfl⟩ := text
      have given : s ≠ "" := by
        rintro rfl
        cases h
      rw [toolOutputPath_text given] at h
      cases hw : (Path.ofText s).withName (ownName (Path.ofText s) tool) with
      | ok q =>
        rw [hw] at h
        cases h
      | error e =>
        rw [hw] at h
        cases h
        rcases withName_error hw with ⟨empty, rfl⟩ | rfl
        · exact .noName given ((name_ofText_eq_empty_iff s).mp empty)
        · refine .slash given (Classical.byContradiction fun slashless => ?_) hw
          have own := (Path.withName_error_iff (ownName_slashless slashless) (ownName_step _ _)).mp hw
          cases own.2
    · unfold toolOutputPath at h
      split at h
      · cases h
      · next given =>
        have fault : f = .misused .path output.kind := by
          cases output <;> first | exact (text ⟨_, rfl⟩).elim | (cases h; rfl)
        subst fault
        exact .noText (by simpa using given) fun s hs => text ⟨s, hs⟩
  · intro h
    cases h with
    | noText given other =>
      unfold toolOutputPath
      rw [if_neg (by simpa using given)]
      cases output <;> first | exact (other _ rfl).elim | rfl
    | @noName s given steps =>
      rw [toolOutputPath_text given]
      unfold Path.withName
      rw [if_pos (by rw [(name_ofText_eq_empty_iff s).mpr steps]; rfl)]
      rfl
    | slash given slash invalid =>
      rw [toolOutputPath_text given, invalid]
      rfl

/-- A tool whose name holds no slash gets a file wherever the path that is given has a last step. -/
theorem toolOutputPath_ok {s tool : String} (slashless : '/' ∉ tool.toList)
    (named : (Path.ofText s).name ≠ "") : ∃ p, toolOutputPath (.str s) tool = .ok p := by
  cases h : toolOutputPath (.str s) tool with
  | ok p => exact ⟨p, rfl⟩
  | error f =>
    cases toolOutputPath_error_iff.mp h with
    | noText given other => exact (other s rfl).elim
    | noName given steps => exact (named ((name_ofText_eq_empty_iff s).mpr steps)).elim
    | slash given slash => exact (slashless slash).elim

end LintHub
