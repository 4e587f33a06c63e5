import LintHub.Proofs.Files.Collected

/-! # Reports that do not meet

The tools of a batch write their reports side by side: each file stands in the directory that was
asked for and carries the name of its tool between the stem and the suffix, so that no two tools with
different names write the same file and none writes the one that was asked for.
-/

namespace LintHub

namespace Path

/-- Stem and suffix of a name: the characters before and from its last point, or the whole name and
nothing. -/
theorem splitSuffix_cases (name : String) :
    splitSuffix name = (name, "") ∨ ∃ head tail, name.toList = head ++ '.' :: tail ∧
      splitSuffix name = (String.ofList head, String.ofList ('.' :: tail)) := by
  obtain ⟨upTo, tail, eq, chars, -, none | ⟨head, rfl⟩⟩ := lastPoint name.toList
  · left
    unfold splitSuffix
    dsimp only
    rw [← eq, if_neg]
    simp [chars, none]
  · have split : name.toList = head ++ '.' :: tail := by simpa using chars
    have front : name.toList.take (name.toList.length - tail.length - 1) = head := by
      rw [split, List.length_append, List.length_cons]
      exact List.take_left' (by omega)
    unfold splitSuffix
    dsimp only
    rw [← eq, front]
    split_ifs
    · exact .inr ⟨head, tail, split, rfl⟩
    · exact .inl rfl

/-- Nothing of a name is lost when it is split. -/
theorem stem_append_suffix (p : Path) : p.stem ++ p.suffix = p.name := by
  unfold stem suffix
  rcases splitSuffix_cases p.name with whole | ⟨head, tail, chars, parts⟩
  · rw [whole, String.append_empty]
  · rw [parts, ← String.ofList_append, ← chars, String.ofList_toList]

theorem name_child (p : Path) (step : String) : (p.child [step]).name = step := by
  simp [name, child]

theorem parent_child (p : Path) (step : String) : (p.child [step]).parent = p := by
  simp [parent, child]

theorem withName_ok {p : Path} {step : String} (slashless : '/' ∉ step.toList)
    (is : isStep step.toList = true) (named : p.name ≠ "") :
    p.withName step = .ok (p.parent.child [step]) := by
  have ends : step.toList.getLast? ≠ some '/' := fun h => slashless (List.mem_of_getLast? h)
  unfold withName
  rw [ofText_of_slashless slashless is, if_neg (by simpa using named),
    if_neg (by simpa [isAbsolute] using ends)]
  rfl

end Path

/-- The file of a tool's report, for the output file that was asked for. -/
structure OwnFile (output tool file : String) : Prop where
  directory : (Path.ofText file).parent = (Path.ofText output).parent
  named : (Path.ofText file).name =
    (Path.ofText output).stem ++ "_" ++ tool ++ (Path.ofText output).suffix
  other : Path.ofText file ≠ Path.ofText output

/-- The name says which tool's report it is. -/
theorem ownName_injective (p : Path) : Function.Injective (ownName p) := by
  intro tool tool' same
  unfold ownName at same
  rw [String.append_left_inj, String.append_right_inj] at same
  exact same

theorem ownName_ne (p : Path) (tool : String) : ownName p tool ≠ p.name := by
  intro same
  have longer := congrArg String.length same
  rw [← p.stem_append_suffix] at longer
  simp only [ownName, String.length_append] at longer
  have one : "_".length = 1 := rfl
  omega

section
variable {output tool : String} (slashless : '/' ∉ tool.toList)
include slashless

theorem toolOutputPath_eq_ok_iff {v : Json} (given : output ≠ "") :
    toolOutputPath (.str output) tool = .ok v ↔ (Path.ofText output).name ≠ "" ∧
      v = .str ((Path.ofText output).parent.child [ownName (Path.ofText output) tool]).text := by
  have own := ownName_slashless (s := output) slashless
  rw [toolOutputPath_text given]
  by_cases named : (Path.ofText output).name = ""
  · rw [(Path.withName_error_iff own (ownName_step _ _)).mpr ⟨named, rfl⟩]
    simp [named, Except.map]
  · rw [Path.withName_ok own (ownName_step _ _) named]
    simp [named, Except.map, eq_comm]

theorem ofText_ownFile :
    Path.ofText ((Path.ofText output).parent.child [ownName (Path.ofText output) tool]).text =
      (Path.ofText output).parent.child [ownName (Path.ofText output) tool] := by
  refine Path.Normal.ofText_text ((Path.normal_ofText output).parent.child ?_ ?_)
  · simpa using ownName_slashless (s := output) slashless
  · simpa using ownName_step (Path.ofText output) tool

theorem ownFile_child : OwnFile output tool
    ((Path.ofText output).parent.child [ownName (Path.ofText output) tool]).text where
  directory := by rw [ofText_ownFile slashless, Path.parent_child]
  named := by
    rw [ofText_ownFile slashless, Path.name_child]
    rfl
  other same := by
    have name := congrArg Path.name same
    rw [ofText_ownFile slashless, Path.name_child] at name
    exact ownName_ne _ _ name

end

/-- What holds of the report of a tool when `output` is asked for. -/
structure OwnFileLaw (output tool : String) : Prop where
  /-- There is a file for it as soon as what is asked for has a last step. -/
  returns : (∃ v, toolOutputPath (.str output) tool = .ok v) ↔ (Path.ofText output).name ≠ ""
  own : ∀ v, toolOutputPath (.str output) tool = .ok v →
    ∃ file, v = .str file ∧ OwnFile output tool file
  /-- The last step is split at its last point, if at all, and nothing of it is lost. -/
  whole : (Path.ofText output).stem ++ (Path.ofText output).suffix = (Path.ofText output).name
  suffix : SuffixOf (Path.ofText output).name (Path.ofText output).suffix
  /-- A tool with another name has another file. -/
  apart : ∀ tool' file file', '/' ∉ tool'.toList → tool' ≠ tool →
    toolOutputPath (.str output) tool = .ok (.str file) →
    toolOutputPath (.str output) tool' = .ok (.str file') → Path.ofText file ≠ Path.ofText file'

/-- Whatever output file is asked for, tools with different names write different files, all of them
in its directory and none of them that file itself. -/
theorem tools_own_their_files {output tool : String} (given : output ≠ "")
    (slashless : '/' ∉ tool.toList) : OwnFileLaw output tool where
  returns := by
    constructor
    · rintro ⟨v, answer⟩
      exact ((toolOutputPath_eq_ok_iff slashless given).mp answer).1
    · intro named
      exact ⟨_, (toolOutputPath_eq_ok_iff slashless given).mpr ⟨named, rfl⟩⟩
  own v answer := by
    obtain ⟨-, rfl⟩ := (toolOutputPath_eq_ok_iff slashless given).mp answer
    exact ⟨_, rfl, ownFile_child slashless⟩
  whole := Path.stem_append_suffix _
  suffix := suffixOf_splitSuffix _
  apart tool' file file' slashless' differ answer answer' same := by
    obtain ⟨-, own⟩ := (toolOutputPath_eq_ok_iff slashless given).mp answer
    obtain ⟨-, own'⟩ := (toolOutputPath_eq_ok_iff slashless' given).mp answer'
    cases own
    cases own'
    have name := congrArg Path.name same
    rw [ofText_ownFile slashless, ofText_ownFile slashless', Path.name_child,
      Path.name_child] at name
    exact differ (ownName_injective _ name).symm

/-- Tool names with underscores and points like those of the output file's own name. -/
theorem tools_own_their_files_dotted :
    toolOutputPath (.str "out/./r.tar.gz") "a" = .ok (.str "out/r.tar_a.gz") ∧
    toolOutputPath (.str "out/./r.tar.gz") "a.gz_a" = .ok (.str "out/r.tar_a.gz_a.gz") ∧
    OwnFile "out/./r.tar.gz" "a.gz_a" "out/r.tar_a.gz_a.gz" ∧
    Path.ofText "out/r.tar_a.gz" ≠ Path.ofText "out/r.tar_a.gz_a.gz" := by
  have law : OwnFileLaw "out/./r.tar.gz" "a" := tools_own_their_files (by decide) (by simp)
  have law' : OwnFileLaw "out/./r.tar.gz" "a.gz_a" := tools_own_their_files (by decide) (by simp)
  have named : (Path.ofText "out/./r.tar.gz").name ≠ "" := by
    have name : (Path.ofText "out/./r.tar.gz").name = "r.tar.gz" := by rfl
    rw [name]
    decide
  have first : toolOutputPath (.str "out/./r.tar.gz") "a" = .ok (.str "out/r.tar_a.gz") :=
    (toolOutputPath_eq_ok_iff (by simp) (by decide)).mpr ⟨named, rfl⟩
  have second : toolOutputPath (.str "out/./r.tar.gz") "a.gz_a" =
      .ok (.str "out/r.tar_a.gz_a.gz") :=
    (toolOutputPath_eq_ok_iff (by simp) (by decide)).mpr ⟨named, rfl⟩
  obtain ⟨file, same, own⟩ := law'.own _ second
  cases same
  exact ⟨first, second, own, law.apart _ _ _ (by simp) (by decide) first second⟩

end LintHub
