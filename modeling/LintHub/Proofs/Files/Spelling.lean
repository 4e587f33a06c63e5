import LintHub.Proofs.Files.Walks
import LintHub.Tool.Report.Bandit
import LintHub.Tool.Report.Ruff

/-! # How a file is spelled

The path of a finding is its key. Whatever leads from the root of the disk to a file inside what was
analysed is told as the one path relative to that. What a tool spells relative to its working
directory is not looked up, but told as it stands.
-/

namespace LintHub

open Disk

variable {d : Disk} {root : Path} {home rest : Location} {s : String}

/-! ## Spellings -/

/-- A text with slashes for backslashes. -/
def slashed (s : String) : String :=
  String.ofList (s.toList.map fun c => if c == '\\' then '/' else c)

/-- A spelling that does not start at the root of the disk, nor does so once a step in front that
stays in place was dropped. -/
structure Relative (s : String) : Prop where
  given : s ≠ ""
  relative : startsAtRoot (slashed s) = false
  single : ¬ ['.', '/', '/'] <+: (slashed s).toList

theorem reportedPath_eq (s : String) :
    reportedPath s = Path.ofText (String.ofList (dropHere (slashed s).toList)) := by
  rw [slashed, String.toList_ofList]
  rfl

theorem reportedPath_absolute (front : startsAtRoot (slashed s) = true) :
    reportedPath s = Path.ofText (slashed s) := by
  have kept : dropHere (slashed s).toList = (slashed s).toList := by
    unfold dropHere
    split
    · next cs eq =>
      rw [startsAtRoot, eq] at front
      cases front
    · rfl
  rw [reportedPath_eq, kept, String.ofList_toList]

theorem splitSteps_dropHere (cs : List Char) :
    (Path.splitSteps (dropHere cs)).filter Path.isStep =
      (Path.splitSteps cs).filter Path.isStep := by
  unfold dropHere
  split
  · next rest =>
    have split : Path.splitSteps ('.' :: '/' :: rest) = ['.'] :: Path.splitSteps rest :=
      @Path.splitSteps_append ['.'] rest (by decide)
    rw [split, List.filter_cons_of_neg (by decide)]
  · rfl

/-- A relative spelling is told with its own steps. -/
theorem Relative.reported (h : Relative s) :
    reportedPath s = ⟨0, (rawSteps (slashed s)).filter (· != ".")⟩ := by
  have parts : (reportedPath s).parts = (rawSteps (slashed s)).filter (· != ".") := by
    rw [← Path.parts_ofText, reportedPath_eq]
    unfold Path.ofText
    dsimp only
    rw [String.toList_ofList, splitSteps_dropHere]
  have front : startsAtRoot (String.ofList (dropHere (slashed s).toList)) = false := by
    have relative := h.relative
    have single := h.single
    unfold startsAtRoot at *
    rw [String.toList_ofList]
    unfold dropHere
    split
    · next rest eq =>
      cases rest with
      | nil => rfl
      | cons c rest =>
        by_cases slash : c = '/'
        · rw [eq, slash] at single
          exact (single ⟨rest, rfl⟩).elim
        · simpa using slash
    · exact relative
  have slashes : (reportedPath s).isAbsolute = false := by
    rw [reportedPath_eq, Path.isAbsolute_ofText, front]
  rw [← parts]
  have zero : (reportedPath s).slashes = 0 := by simpa [Path.isAbsolute] using slashes
  rw [← zero]

/-! ## The directory that paths are relative to -/

/-- The directory that was analysed, or the one that the file is in that was. -/
inductive Holds (d : Disk) (root : Path) (home : Location) : Prop where
  | directory (normal : root.Normal) (is : d.arrive true root.text = .ok ⟨home, some .directory⟩)
  | file (normal : root.Normal) (is : d.isDirectory root = .ok false)
    (inside : d.arrive true root.parent.text = .ok ⟨home, some .directory⟩)

theorem Holds.base (h : Holds d root home) (here : d.Real d.here) : ∃ is,
    d.isDirectory root = .ok is ∧
      d.resolve (if is then root else root.parent) = .ok ⟨1, home⟩ := by
  cases h with
  | directory normal is =>
    refine ⟨true, ?_, ?_⟩
    · unfold isDirectory status open?
      rw [is]
      rfl
    · have resolved := resolve_ofText here is
      rwa [normal.ofText_text] at resolved
  | file normal is inside =>
    refine ⟨false, is, ?_⟩
    have resolved := resolve_ofText here inside
    rwa [normal.parent.ofText_text] at resolved

/-- Once the root was looked at, the path is told relative to where it is, or as it stands. -/
theorem relativePath_asked {is : Bool} (given : s ≠ "") (asked : d.isDirectory root = .ok is) :
    relativePath d (.str s) (some root) =
      match d.within (if is then root else root.parent) (reportedPath s) with
      | .ok (some q) => .ok q.text
      | .ok none => .ok (reportedPath s).text
      | .error f =>
        if f.isOneOf [.system, .value] then .ok (reportedPath s).text else .error f := by
  have text : (Json.str s).textFor "replace" = .ok s := rfl
  unfold relativePath
  rw [if_neg (by simpa [Json.isBlank] using given), text]
  show (d.isDirectory root >>= _) = _
  rw [asked]
  rfl

/-- The key of a path: what is left of it in the directory, or all of it where it lies elsewhere. -/
theorem relativePath_within {is : Bool} {q : Option Path} (given : s ≠ "")
    (asked : d.isDirectory root = .ok is)
    (inside : d.within (if is then root else root.parent) (reportedPath s) = .ok q) :
    relativePath d (.str s) (some root) = .ok (q.getD (reportedPath s)).text := by
  rw [relativePath_asked given asked, inside]
  cases q <;> rfl

/-- A path that cannot be resolved is told as it stands. -/
theorem relativePath_refused {is : Bool} (given : s ≠ "") (asked : d.isDirectory root = .ok is)
    (refused : d.within (if is then root else root.parent) (reportedPath s) = .error .nullByte) :
    relativePath d (.str s) (some root) = .ok (reportedPath s).text := by
  rw [relativePath_asked given asked, refused]
  rfl

theorem within_inside {base p : Path} (resolved : d.resolve base = .ok ⟨1, home⟩)
    (absolute : p.isAbsolute = true) (leads : d.resolve p = .ok ⟨1, home ++ rest⟩) :
    d.within base p = .ok (some ⟨0, rest⟩) := by
  have remains : Path.relativeTo? ⟨1, home ++ rest⟩ ⟨1, home⟩ = some ⟨0, rest⟩ := by
    simp [Path.relativeTo?]
  refine bind_ok_iff.mpr ⟨_, resolved, ?_⟩
  rw [if_pos absolute]
  exact bind_ok_iff.mpr ⟨_, leads, congrArg Except.ok remains⟩

theorem relativePath_relative (holds : Holds d root home) (here : d.Real d.here)
    (relative : Relative s) : relativePath d (.str s) (some root) =
      .ok (Path.text ⟨0, (rawSteps (slashed s)).filter (· != ".")⟩) := by
  obtain ⟨is, asked, resolved⟩ := holds.base here
  have inside : d.within (if is then root else root.parent) (reportedPath s) = .ok none := by
    rw [relative.reported]
    exact bind_ok_iff.mpr ⟨_, resolved, rfl⟩
  rw [relativePath_within relative.given asked inside, Option.getD_none, relative.reported]

theorem relativePath_absolute (holds : Holds d root home) (here : d.Real d.here) {e : Entry}
    (front : startsAtRoot (slashed s) = true)
    (leads : d.arrive true (slashed s) = .ok ⟨home ++ rest, some e⟩) :
    relativePath d (.str s) (some root) = .ok (Path.text ⟨0, rest⟩) := by
  obtain ⟨is, asked, resolved⟩ := holds.base here
  have given : s ≠ "" := by
    rintro rfl
    cases front
  have absolute : (Path.ofText (slashed s)).isAbsolute = true := by rw [Path.isAbsolute_ofText, front]
  have inside : d.within (if is then root else root.parent) (reportedPath s) =
      .ok (some ⟨0, rest⟩) := by
    rw [reportedPath_absolute front]
    exact within_inside resolved absolute (resolve_ofText here leads)
  rw [relativePath_within given asked inside, Option.getD_some]

/-! ## One file, one key -/

/-- What spells a file inside a directory: whatever leads there from the root of the disk, and where
one works in the directory itself, the names of the steps that lead there without links. -/
inductive Spells (d : Disk) (home rest : Location) (s : String) : Prop where
  | fromRoot {e : Entry} (front : startsAtRoot (slashed s) = true)
    (leads : d.arrive true (slashed s) = .ok ⟨home ++ rest, some e⟩)
  | fromHere {e : Entry} (here : d.here = home) (relative : Relative s)
    (level : ".." ∉ rawSteps (slashed s))
    (leads : d.walk true 0 home (rawSteps (slashed s)) = .ok ⟨home ++ rest, some e⟩)

theorem Spells.key (spells : Spells d home rest s) (holds : Holds d root home)
    (here : d.Real d.here) : relativePath d (.str s) (some root) = .ok (Path.text ⟨0, rest⟩) := by
  cases spells with
  | fromRoot front leads => exact relativePath_absolute holds here front leads
  | fromHere _ relative level leads =>
    obtain ⟨k, few, walks⟩ := Leads.of_walk leads
    obtain rfl : k = 0 := by omega
    have straight := walks.straight level
    rw [relativePath_relative holds here relative, ← List.append_cancel_left straight]

theorem RuffReport.issueOf_filePath {fields : Fields} {i : Issue} {key : String}
    (named : fields.valueOr "filename" (.str "") = .str s)
    (told : relativePath d (.str s) (some root) = .ok key)
    (found : issueOf d (some root) (.obj fields) = .ok i) : i.filePath = .str key := by
  obtain ⟨_, object, found⟩ := bind_ok_iff.mp found
  cases object
  obtain ⟨file, path, found⟩ := bind_ok_iff.mp found
  rw [named, told] at path
  cases path
  obtain ⟨place, -, found⟩ := bind_ok_iff.mp found
  obtain ⟨line, -, found⟩ := bind_ok_iff.mp found
  obtain ⟨column, -, found⟩ := bind_ok_iff.mp found
  obtain ⟨kind, -, found⟩ := bind_ok_iff.mp found
  obtain ⟨fix, -, found⟩ := bind_ok_iff.mp found
  cases found
  rfl

theorem BanditReport.issueOf_filePath {fields : Fields} {i : Issue} {key : String}
    (named : fields.valueOr "filename" (.str "") = .str s)
    (told : relativePath d (.str s) (some root) = .ok key)
    (found : issueOf d (some root) (.obj fields) = .ok i) : i.filePath = .str key := by
  obtain ⟨_, object, found⟩ := bind_ok_iff.mp found
  cases object
  obtain ⟨file, path, found⟩ := bind_ok_iff.mp found
  rw [named, show (Json.str s).display = s from rfl, told] at path
  cases path
  obtain ⟨line, -, found⟩ := bind_ok_iff.mp found
  obtain ⟨column, -, found⟩ := bind_ok_iff.mp found
  obtain ⟨severity, -, found⟩ := bind_ok_iff.mp found
  cases found
  rfl

/-- What keys promise of a directory that was analysed. -/
structure KeyLaw (d : Disk) (root : Path) (home : Location) : Prop where
  /-- However a file is spelled, its path is the steps that lead to it from the directory. -/
  one : ∀ rest s, Spells d home rest s →
    relativePath d (.str s) (some root) = .ok (Path.text ⟨0, rest⟩)
  /-- A relative spelling is told as its own steps, whatever they lead to. So it shares the path of a
  file in the directory exactly if they are the steps to it from there. -/
  own : ∀ s, Relative s → ∃ key, relativePath d (.str s) (some root) = .ok key ∧
    startsAtRoot key = false ∧ ∀ rest, Path.Normal ⟨0, rest⟩ →
      (key = Path.text ⟨0, rest⟩ ↔ (rawSteps (slashed s)).filter (· != ".") = rest)
  /-- Both tools tell of a file under the one path. -/
  shared : ∀ rest s s' ruff bandit i j, Spells d home rest s → Spells d home rest s' →
    Fields.valueOr ruff "filename" (.str "") = .str s →
    Fields.valueOr bandit "filename" (.str "") = .str s' →
    RuffReport.issueOf d (some root) (.obj ruff) = .ok i →
    BanditReport.issueOf d (some root) (.obj bandit) = .ok j → i.filePath = j.filePath

theorem one_key_per_file (holds : Holds d root home) (here : d.Real d.here) :
    KeyLaw d root home where
  one rest s spells := spells.key holds here
  own s relative := by
    have normal : Path.Normal ⟨0, (rawSteps (slashed s)).filter (· != ".")⟩ := by
      rw [← Path.parts_ofText]
      exact (Path.normal_ofText _).relative
    refine ⟨_, relativePath_relative holds here relative, ?_, fun rest normal' => ?_⟩
    · rw [← Path.isAbsolute_ofText, normal.ofText_text]
      rfl
    · constructor
      · intro same
        have paths := congrArg Path.ofText same
        rw [normal.ofText_text, normal'.ofText_text, Path.mk.injEq] at paths
        exact paths.2
      · rintro rfl
        rfl
  shared rest s s' ruff bandit i j spells spells' named named' found found' := by
    rw [RuffReport.issueOf_filePath named (spells.key holds here) found,
      BanditReport.issueOf_filePath named' (spells'.key holds here) found']

/-- One works in a directory, and another one in it holds a file. -/
def workplace : Disk where
  entries := [(["w"], .directory), (["w", "src"], .directory), (["w", "src", "a.py"], .file [] false)]
  here := ["w"]

theorem workplace_here : workplace.Real workplace.here := by
  refine Real.root.forward ⟨by decide, by decide, by decide, by decide⟩ fun target link => ?_
  have there : workplace.lookup ["w"] = some .directory := rfl
  cases there.symm.trans link

theorem workplace_holds : Holds workplace (Path.ofText "src") ["w", "src"] :=
  .directory (Path.normal_ofText "src") <| by
    have text : (Path.ofText "src").text = "src" := by decide
    rw [text]
    exact arrive_name true (by decide) fun target link => nomatch link

theorem workplace_detour : workplace.arrive true (slashed "/w\\src\\..\\src//./a.py") =
    .ok ⟨["w", "src"] ++ ["a.py"], some (.file [] false)⟩ := by
  have steps : rawSteps (slashed "/w\\src\\..\\src//./a.py") =
      ["w", "src", "..", "src", ".", "a.py"] := by decide
  refine arrive_ok_iff.mpr ⟨by decide, by decide, by decide, ?_⟩
  rw [steps, if_pos (by decide), walk_directory (by decide) rfl, walk_directory (by decide) rfl,
    walk_dots, List.dropLast_concat, walk_directory (by decide) rfl, walk_dot]
  exact walk_file (by decide) rfl

theorem relative_near : Relative "src//a.py" where
  given := by decide
  relative := by decide
  single := by decide

theorem workplace_near : workplace.arrive true (slashed "src//a.py") =
    .ok ⟨["w", "src"] ++ ["a.py"], some (.file [] false)⟩ := by
  have steps : rawSteps (slashed "src//a.py") = ["src", "a.py"] := by decide
  refine arrive_ok_iff.mpr ⟨by decide, by decide, by decide, ?_⟩
  rw [steps, relative_near.relative, if_neg (by decide), walk_directory (by decide) rfl]
  exact walk_file (by decide) rfl

/-- The detour from the root of the disk is left out, the directory that one does not work in is
not. -/
theorem one_key_per_file_workplace :
    relativePath workplace (.str "/w\\src\\..\\src//./a.py") (some (Path.ofText "src")) =
        .ok (Path.text ⟨0, ["a.py"]⟩) ∧
      ∃ key, relativePath workplace (.str "src//a.py") (some (Path.ofText "src")) = .ok key ∧
        key ≠ Path.text ⟨0, ["a.py"]⟩ := by
  have law := one_key_per_file workplace_holds workplace_here
  obtain ⟨key, told, -, own⟩ := law.own "src//a.py" relative_near
  refine ⟨law.one ["a.py"] _ (.fromRoot (by decide) workplace_detour), key, told, fun same => ?_⟩
  have steps := (own ["a.py"] ⟨by decide, by decide, by decide⟩).mp same
  exact absurd steps (by decide)

/-- One file has two keys where one does not work in the directory that was analysed: what is
relative is not looked up. -/
theorem not_every_spelling_has_one_key :
    ¬ ∀ (d : Disk) (root : Path) (home rest : Location) (e : Entry), d.Real d.here →
      Holds d root home → ∃ key, ∀ s, d.arrive true (slashed s) = .ok ⟨home ++ rest, some e⟩ →
        relativePath d (.str s) (some root) = .ok key := by
  intro claim
  obtain ⟨key, every⟩ :=
    claim workplace _ _ ["a.py"] (.file [] false) workplace_here workplace_holds
  have far := relativePath_absolute workplace_holds workplace_here (by decide) workplace_detour
  have near := relativePath_relative workplace_holds workplace_here relative_near
  have keys := (far.symm.trans (every _ workplace_detour)).trans
    ((every _ workplace_near).symm.trans near)
  exact absurd (Except.ok.inj keys) (by decide)

end LintHub
