import LintHub.Proofs.Files.Refusal
import LintHub.Proofs.Files.Spelling

/-! # Absolute names

Where no links lead in circles every path leads to one place, which is what it is resolved to. An
absolute name of something in the directory that was analysed is told by the steps from there, whatever
links and steps upwards it takes; any other name is told as it stands. What was told is told again as
itself.
-/

namespace LintHub

namespace Disk

variable {d : Disk} {l l' at' home rest : Location} {steps : List String} {k : Nat} {p root : Path}

/-! ## Where paths lead -/

/-- Every link leads somewhere, and there is no backslash in what it points to. -/
structure Untangled (d : Disk) : Prop where
  ends : ∀ link target, d.lookup link = some (.link target) → ∃ l k, d.Jumps link l k
  named : ∀ link target, d.lookup link = some (.link target) → '\\' ∉ target.toList

/-- By induction on the steps: they go on from where a link leads. -/
theorem Untangled.leads (h : d.Untangled) (at' : Location) (steps : List String) :
    ∃ l k, Leads d at' steps l k := by
  induction steps generalizing at' with
  | nil => exact ⟨at', 0, .arrived⟩
  | cons step rest ih =>
    by_cases dot : step = "."
    · obtain ⟨l, k, goesOn⟩ := ih at'
      exact ⟨l, k, .stay dot goesOn⟩
    by_cases up : step = ".."
    · obtain ⟨l, k, goesOn⟩ := ih at'.dropLast
      exact ⟨l, k, .up up goesOn⟩
    by_cases linked : ∃ target, d.lookup (at' ++ [step]) = some (.link target)
    · obtain ⟨target, link⟩ := linked
      obtain ⟨mid, j, target', link', inner⟩ := h.ends _ target link
      cases link.symm.trans link'
      rw [List.dropLast_concat] at inner
      obtain ⟨l, k, goesOn⟩ := ih mid
      exact ⟨l, j + k + 1, .follow ⟨dot, up⟩ link inner goesOn⟩
    · obtain ⟨l, k, goesOn⟩ := ih (at' ++ [step])
      exact ⟨l, k, .forward ⟨dot, up⟩ (fun target link => linked ⟨target, link⟩) goesOn⟩

/-- The names on the way come from the steps and from what links point to. -/
theorem Leads.lacks {c : Char} (slash : c ≠ '/') (dot : c ≠ '.') (h : Leads d at' steps l k)
    (targets : ∀ link target, d.lookup link = some (.link target) → c ∉ target.toList)
    (start : ∀ name ∈ at', c ∉ name.toList) (given : ∀ step ∈ steps, c ∉ step.toList) :
    ∀ name ∈ l, c ∉ name.toList := by
  induction h with
  | arrived => exact start
  | stay _ _ ih => exact ih start (List.forall_mem_cons.mp given).2
  | up _ _ ih =>
    exact ih (fun name mem => start name (List.dropLast_subset _ mem))
      (List.forall_mem_cons.mp given).2
  | forward _ _ _ ih =>
    obtain ⟨first, given⟩ := List.forall_mem_cons.mp given
    refine ih (fun name mem => ?_) given
    rcases List.mem_append.mp mem with mem | mem
    · exact start name mem
    · rwa [List.mem_singleton.mp mem]
  | @follow at' _ _ _ target _ _ _ _ link _ _ ihInner ih =>
    have start' : ∀ name ∈ linkStart at' target, c ∉ name.toList := by
      unfold linkStart
      split
      · simp
      · exact start
    exact ih (ihInner start' fun step mem has => targets _ _ link (Path.mem_of_rawSteps slash dot mem has))
      (List.forall_mem_cons.mp given).2

/-- Its steps and the links on the way lead a path to a place. -/
def LeadsTo (d : Disk) (p : Path) (l : Location) : Prop :=
  ¬ p.IsNull ∧ ∃ k, d.Leads (if p.isAbsolute then [] else d.here) p.parts l k

theorem LeadsTo.functional (h : d.LeadsTo p l) (h' : d.LeadsTo p l') : l = l' := by
  obtain ⟨-, k, leads⟩ := h
  obtain ⟨-, k', leads'⟩ := h'
  exact (leads.functional leads').1

theorem LeadsTo.real (h : d.LeadsTo p l) (here : d.Real d.here) (normal : p.Normal) : d.Real l := by
  obtain ⟨-, k, leads⟩ := h
  have start : d.Real (if p.isAbsolute then [] else d.here) := by
    split
    · exact .root
    · exact here
  refine leads.real start fun step mem => ⟨normal.slashless step mem, ?_⟩
  rintro rfl
  exact absurd (normal.step "" mem) (by decide)

theorem LeadsTo.clean (h : d.LeadsTo p l) (untangled : d.Untangled) (absolute : p.isAbsolute = true)
    (named : ∀ part ∈ p.parts, '\\' ∉ part.toList) : ∀ step ∈ l, '\\' ∉ step.toList := by
  obtain ⟨-, k, leads⟩ := h
  rw [if_pos absolute] at leads
  exact leads.lacks (by decide) (by decide) untangled.named (by simp) named

/-- A path is resolved to where it leads, unless there is a null character in it. -/
theorem Untangled.resolve (h : d.Untangled) (here : d.Real d.here) (normal : p.Normal) :
    (∃ l, d.LeadsTo p l ∧ d.resolve p = .ok ⟨1, l⟩) ∨
      (∀ l, ¬ d.LeadsTo p l) ∧ d.resolve p = .error .nullByte := by
  by_cases null : p.IsNull
  · refine .inr ⟨fun l leads => leads.1 null, ?_⟩
    unfold Disk.resolve
    rw [if_pos (Path.isNull_text.mpr null)]
  · obtain ⟨l, k, leads⟩ := h.leads (if p.isAbsolute then [] else d.here) p.parts
    have there : d.LeadsTo p l := ⟨null, k, leads⟩
    exact .inl ⟨l, there, resolve_leads null (there.real here normal) leads⟩

theorem Untangled.resolve_ok_iff (h : d.Untangled) (here : d.Real d.here) (normal : p.Normal) :
    d.resolve p = .ok ⟨1, l⟩ ↔ d.LeadsTo p l := by
  rcases h.resolve here normal with ⟨l', there, resolved⟩ | ⟨nowhere, refused⟩
  · rw [resolved]
    constructor
    · intro same
      cases same
      exact there
    · intro leads
      rw [there.functional leads]
  · rw [refused]
    exact ⟨fun same => (nomatch same), fun leads => (nowhere l leads).elim⟩

end Disk

open Disk

variable {d : Disk} {root : Path} {s : String} {home rest : Location}

/-! ## Texts that were told -/

theorem slashed_eq (clean : '\\' ∉ s.toList) : slashed s = s := by
  have same : (s.toList.map fun c => if c == '\\' then '/' else c) = s.toList.map id := by
    refine List.map_congr_left fun c mem => if_neg ?_
    rw [beq_iff_eq]
    rintro rfl
    exact clean mem
  rw [slashed, same, List.map_id, String.ofList_toList]

theorem slashed_clean (s : String) : '\\' ∉ (slashed s).toList := by
  rw [slashed, String.toList_ofList, List.mem_map]
  rintro ⟨c, -, same⟩
  split at same
  · cases same
  · next other => exact other (beq_iff_eq.mpr same)

/-- No text of a path begins with a step that stays in place. -/
theorem Path.Normal.dropHere_text {p : Path} (h : p.Normal) :
    dropHere p.text.toList = p.text.toList := by
  unfold dropHere
  split
  · next cs eq =>
    have steps : splitSteps p.text.toList = ['.'] :: splitSteps cs := by
      rw [eq]
      exact @splitSteps_append ['.'] cs (by decide)
    have relative : p.slashes = 0 := by
      have front : startsAtRoot p.text = false := by
        rw [startsAtRoot, eq]
        rfl
      rw [← isAbsolute_ofText, h.ofText_text] at front
      simpa [isAbsolute] using front
    unfold text at steps eq
    split at eq
    · simp at eq
    · next given =>
      have some : p.parts.map String.toList ≠ [] := by simpa [relative] using given
      have chars : (String.ofList (List.replicate p.slashes '/') ++
          String.intercalate "/" p.parts).toList = ['/'].intercalate (p.parts.map String.toList) := by
        simp [relative, String.toList_intercalate]
      rw [if_neg given, chars, splitSteps_intercalate (by simpa using h.slashless) some] at steps
      have first : ['.'] ∈ p.parts.map String.toList := by
        rw [steps]
        exact List.mem_cons_self ..
      obtain ⟨part, mem, same⟩ := List.mem_map.mp first
      have step := h.step part mem
      rw [same] at step
      cases step
  · rfl

theorem reportedPath_normal (s : String) : (reportedPath s).Normal := by
  rw [reportedPath_eq]
  exact Path.normal_ofText _

theorem reportedPath_clean (s : String) : ∀ part ∈ (reportedPath s).parts, '\\' ∉ part.toList := by
  intro part mem has
  rw [reportedPath_eq] at mem
  have there := Path.mem_of_parts (by decide) mem has
  rw [String.toList_ofList] at there
  have kept : dropHere (slashed s).toList ⊆ (slashed s).toList := by
    unfold dropHere
    split
    · simp_all
    · exact List.Subset.refl _
  exact slashed_clean s (kept there)

/-- The text of a path without backslashes is read as that path. -/
theorem reportedPath_text {p : Path} (normal : p.Normal)
    (clean : ∀ part ∈ p.parts, '\\' ∉ part.toList) : reportedPath p.text = p := by
  have plain : '\\' ∉ p.text.toList := by
    rw [Path.mem_text (by decide) (by decide)]
    rintro ⟨part, mem, has⟩
    exact clean part mem has
  rw [reportedPath_eq, slashed_eq plain, normal.dropHere_text, String.ofList_toList,
    normal.ofText_text]

/-- What a path is read as is told as that path. -/
theorem reportedPath_again (s : String) : reportedPath (reportedPath s).text = reportedPath s :=
  reportedPath_text (reportedPath_normal s) (reportedPath_clean s)

/-! ## What is told -/

/-- The directory that paths are relative to: the root, or where it is in if it is none. -/
def Disk.BaseOf (d : Disk) (root base : Path) : Prop :=
  ∃ is, d.isDirectory root = .ok is ∧ base = if is then root else root.parent

/-- A name that leads to the steps `rest` from the directory `home` that `base` leads to. -/
structure Within (d : Disk) (base : Path) (s : String) (home rest : Location) : Prop where
  absolute : (reportedPath s).isAbsolute = true
  start : d.LeadsTo base home
  there : d.LeadsTo (reportedPath s) (home ++ rest)

theorem Within.plain {base : Path} (inside : Within d base s home rest) (here : d.Real d.here) :
    ∀ step ∈ rest, IsPlain step := fun step mem =>
  (inside.there.real here (reportedPath_normal s)).plain step (List.mem_append_right _ mem)

theorem Disk.BaseOf.normal {base : Path} (h : d.BaseOf root base) (normal : root.Normal) :
    base.Normal := by
  obtain ⟨is, -, rfl⟩ := h
  split
  · exact normal
  · exact normal.parent

theorem relativePath_empty (d : Disk) (root : Option Path) : relativePath d (.str "") root = .ok "" :=
  rfl

section told

variable {base : Path} (untangled : d.Untangled) (here : d.Real d.here) (normal : root.Normal)
  (based : d.BaseOf root base)

include untangled here normal based

theorem relativePath_inside (inside : Within d base s home rest) :
    relativePath d (.str s) (some root) = .ok (Path.text ⟨0, rest⟩) := by
  have given : s ≠ "" := by
    rintro rfl
    exact absurd inside.absolute (by decide)
  have resolved := (untangled.resolve_ok_iff here (based.normal normal)).mpr inside.start
  have leads := (untangled.resolve_ok_iff here (reportedPath_normal s)).mpr inside.there
  obtain ⟨is, asked, rfl⟩ := based
  rw [relativePath_within given asked (within_inside resolved inside.absolute leads),
    Option.getD_some]

theorem relativePath_outside (given : s ≠ "") (outside : ∀ home rest, ¬ Within d base s home rest) :
    relativePath d (.str s) (some root) = .ok (reportedPath s).text := by
  have named := reportedPath_normal s
  have starts := untangled.resolve here (based.normal normal)
  obtain ⟨is, asked, rfl⟩ := based
  rcases starts with ⟨home, start, resolved⟩ | ⟨-, refused⟩
  · by_cases absolute : (reportedPath s).isAbsolute = true
    · rcases untangled.resolve here named with ⟨l, there, found⟩ | ⟨-, refused⟩
      · have elsewhere : Path.relativeTo? ⟨1, l⟩ ⟨1, home⟩ = none := by
          refine if_neg fun inside => ?_
          simp only [Bool.and_eq_true, decide_true, true_and, List.isPrefixOf_iff_prefix] at inside
          obtain ⟨rest, rfl⟩ := inside
          exact outside home rest ⟨absolute, start, there⟩
        have within : d.within (if is then root else root.parent) (reportedPath s) = .ok none := by
          refine bind_ok_iff.mpr ⟨_, resolved, ?_⟩
          rw [if_pos absolute]
          exact bind_ok_iff.mpr ⟨_, found, congrArg Except.ok elsewhere⟩
        rw [relativePath_within given asked within, Option.getD_none]
      · refine relativePath_refused given asked (bind_error_iff.mpr (.inr ⟨_, resolved, ?_⟩))
        rw [if_pos absolute]
        exact bind_error_iff.mpr (.inl refused)
    · have within : d.within (if is then root else root.parent) (reportedPath s) = .ok none := by
        refine bind_ok_iff.mpr ⟨_, resolved, ?_⟩
        rw [if_neg absolute]
        rfl
      rw [relativePath_within given asked within, Option.getD_none]
  · exact relativePath_refused given asked (bind_error_iff.mpr (.inl refused))

/-- What was told is read as the path that was meant, or as one that does not start at the root. -/
theorem relativePath_again {key : String} (told : relativePath d (.str s) (some root) = .ok key) :
    relativePath d (.str key) (some root) = .ok key := by
  by_cases empty : key = ""
  · rw [empty, relativePath_empty]
  by_cases given : s = ""
  · rw [given, relativePath_empty] at told
    exact (empty (Except.ok.inj told).symm).elim
  by_cases inside : ∃ home rest, Within d base s home rest
  · obtain ⟨home, rest, inside⟩ := inside
    rw [relativePath_inside untangled here normal based inside] at told
    obtain rfl := Except.ok.inj told
    have names : Path.Normal ⟨0, rest⟩ := normal_of_plain (inside.plain here) (Nat.zero_le 2)
    have clean := inside.there.clean untangled inside.absolute (reportedPath_clean s)
    have read : reportedPath (Path.text ⟨0, rest⟩) = ⟨0, rest⟩ :=
      reportedPath_text names fun step mem => clean step (List.mem_append_right _ mem)
    rw [relativePath_outside untangled here normal based empty fun _ _ within => ?_, read]
    have absolute := within.absolute
    rw [read] at absolute
    cases absolute
  · have outside : ∀ home rest, ¬ Within d base s home rest := fun home rest within =>
      inside ⟨home, rest, within⟩
    rw [relativePath_outside untangled here normal based given outside] at told
    obtain rfl := Except.ok.inj told
    have read := reportedPath_again s
    rw [relativePath_outside untangled here normal based empty fun home rest within => ?_, read]
    refine outside home rest ⟨?_, within.start, ?_⟩
    · rw [← read]
      exact within.absolute
    · rw [← read]
      exact within.there

end told

/-! ## The law of absolute names -/

/-- What is promised of names that are told relative to a root. -/
structure AbsoluteLaw (d : Disk) (root : Path) : Prop where
  /-- What a path is resolved to is where its steps and the links on the way lead. -/
  resolves : ∀ p : Path, p.Normal → ∀ l, d.resolve p = .ok ⟨1, l⟩ ↔ d.LeadsTo p l
  /-- There is an answer, unless the root cannot be looked at since its name is too long. -/
  answers : ∀ s, (∃ key, relativePath d (.str s) (some root) = .ok key) ∨
    d.isDirectory root = .error (.refused .nameTooLong root.text) ∧
      relativePath d (.str s) (some root) = .error (.refused .nameTooLong root.text)
  /-- All names of one place in the directory are told by the steps from there. -/
  inside : ∀ base home rest s, d.BaseOf root base → d.LeadsTo base home →
    startsAtRoot (slashed s) = true → d.LeadsTo (Path.ofText (slashed s)) (home ++ rest) →
    relativePath d (.str s) (some root) = .ok (Path.text ⟨0, rest⟩) ∧
      Path.ofText (Path.text ⟨0, rest⟩) = ⟨0, rest⟩ ∧ ".." ∉ rest
  /-- A name of any other place is told as it stands. -/
  outside : ∀ base s, d.BaseOf root base → startsAtRoot (slashed s) = true →
    (∀ home rest, d.LeadsTo base home → ¬ d.LeadsTo (Path.ofText (slashed s)) (home ++ rest)) →
    relativePath d (.str s) (some root) = .ok (Path.ofText (slashed s)).text
  again : ∀ s key, relativePath d (.str s) (some root) = .ok key →
    relativePath d (.str key) (some root) = .ok key
  /-- This holds without a root too. -/
  alone : ∀ s key, relativePath d (.str s) none = .ok key → relativePath d (.str key) none = .ok key

/-- Looking at the root is what can be refused. -/
theorem relativePath_ok_iff (untangled : d.Untangled) (here : d.Real d.here) (normal : root.Normal)
    (given : s ≠ "") :
    (∃ key, relativePath d (.str s) (some root) = .ok key) ↔ ∃ is, d.isDirectory root = .ok is := by
  constructor
  · rintro ⟨key, told⟩
    unfold relativePath at told
    rw [if_neg (by simpa [Json.isBlank] using given)] at told
    obtain ⟨_, -, told⟩ := bind_ok_iff.mp told
    obtain ⟨is, asked, -⟩ := bind_ok_iff.mp told
    exact ⟨is, asked⟩
  · rintro ⟨is, asked⟩
    have based : d.BaseOf root (if is then root else root.parent) := ⟨is, asked, rfl⟩
    by_cases inside : ∃ home rest, Within d (if is then root else root.parent) s home rest
    · obtain ⟨home, rest, inside⟩ := inside
      exact ⟨_, relativePath_inside untangled here normal based inside⟩
    · exact ⟨_, relativePath_outside untangled here normal based given
        fun home rest within => inside ⟨home, rest, within⟩⟩

theorem relativePath_error {f : Fault} (given : s ≠ "") (asked : d.isDirectory root = .error f) :
    relativePath d (.str s) (some root) = .error f := by
  unfold relativePath
  rw [if_neg (by simpa [Json.isBlank] using given)]
  exact bind_error_iff.mpr (.inr ⟨s, rfl, bind_error_iff.mpr (.inl asked)⟩)

theorem relativePath_none (given : s ≠ "") :
    relativePath d (.str s) none = .ok (reportedPath s).text := by
  unfold relativePath
  rw [if_neg (by simpa [Json.isBlank] using given)]
  exact bind_ok_iff.mpr ⟨s, rfl, rfl⟩

/-- The law holds on disks without circles of links. The working directory is the one that the system
tells, which has no links in it. -/
theorem absolute_names_told_by_place (untangled : d.Untangled) (here : d.Real d.here)
    (normal : root.Normal) : AbsoluteLaw d root where
  resolves p named l := untangled.resolve_ok_iff here named
  answers s := by
    by_cases empty : s = ""
    · exact .inl ⟨"", by rw [empty, relativePath_empty]⟩
    cases asked : d.isDirectory root with
    | ok is => exact .inl ((relativePath_ok_iff untangled here normal empty).mpr ⟨is, asked⟩)
    | error f =>
      cases isDirectory_error asked
      exact .inr ⟨rfl, relativePath_error empty asked⟩
  inside base home rest s based start front there := by
    rw [← reportedPath_absolute front] at there
    have absolute : (reportedPath s).isAbsolute = true := by
      rw [reportedPath_absolute front, Path.isAbsolute_ofText, front]
    have within : Within d base s home rest := ⟨absolute, start, there⟩
    refine ⟨relativePath_inside untangled here normal based within,
      (normal_of_plain (within.plain here) (Nat.zero_le 2)).ofText_text, fun up => ?_⟩
    exact (within.plain here ".." up).forward.2 rfl
  outside base s based front elsewhere := by
    have given : s ≠ "" := by
      rintro rfl
      cases front
    rw [← reportedPath_absolute front] at elsewhere ⊢
    exact relativePath_outside untangled here normal based given
      fun home rest within => elsewhere home rest within.start within.there
  again s key told := by
    by_cases empty : s = ""
    · rw [empty, relativePath_empty] at told
      rw [← Except.ok.inj told, relativePath_empty]
    · obtain ⟨is, asked⟩ := (relativePath_ok_iff untangled here normal empty).mp ⟨key, told⟩
      exact relativePath_again untangled here normal ⟨is, asked, rfl⟩ told
  alone s key told := by
    by_cases empty : s = ""
    · rw [empty, relativePath_empty] at told
      rw [← Except.ok.inj told, relativePath_empty]
    · rw [relativePath_none empty] at told
      obtain rfl := Except.ok.inj told
      by_cases none : (reportedPath s).text = ""
      · rw [none, relativePath_empty]
      · rw [relativePath_none none, reportedPath_again]

/-- A directory with a file in it, a file beside it and a link to it, where one works. -/
def crossroads : Disk where
  entries :=
    [ (["w"], .directory), (["w", "src"], .directory), (["w", "src", "a.py"], .file [] false),
      (["w", "src.py"], .file [] false), (["w", "lib"], .link "src") ]
  here := ["w"]

theorem crossroads_link {link : Location} {target : String}
    (there : crossroads.lookup link = some (.link target)) : link = ["w", "lib"] ∧ target = "src" := by
  simpa [crossroads] using mem_of_link there

theorem crossroads_real : crossroads.Real crossroads.here := by
  refine Real.root.forward ⟨by decide, by decide, by decide, by decide⟩ fun target link => ?_
  exact absurd (crossroads_link link).1 (by decide)

theorem crossroads_untangled : crossroads.Untangled where
  ends link target there := by
    obtain ⟨rfl, rfl⟩ := crossroads_link there
    refine ⟨["w", "src"], 0, "src", there, ?_⟩
    refine .forward ⟨by decide, by decide⟩ (fun target link => ?_) .arrived
    exact absurd (crossroads_link link).1 (by decide)
  named link target there := by
    obtain ⟨rfl, rfl⟩ := crossroads_link there
    decide

theorem crossroads_root : crossroads.arrive true "lib" = .ok ⟨["w", "src"], some .directory⟩ := by
  have steps : rawSteps "lib" = ["lib"] := by decide
  refine arrive_ok_iff.mpr ⟨by decide, by decide, by decide, ?_⟩
  rw [steps, if_neg (by decide), linkLimit, walk_link (by decide) rfl, if_neg (by decide)]
  exact (walk_directory (by decide) rfl).trans walk_nil

theorem crossroads_detour : crossroads.arrive true (slashed "/w/lib/../src//a.py") =
    .ok ⟨["w", "src"] ++ ["a.py"], some (.file [] false)⟩ := by
  have steps : rawSteps (slashed "/w/lib/../src//a.py") = ["w", "lib", "..", "src", "a.py"] := by
    decide
  refine arrive_ok_iff.mpr ⟨by decide, by decide, by decide, ?_⟩
  rw [steps, if_pos (by decide), linkLimit, walk_directory (by decide) rfl,
    walk_link (by decide) rfl, if_neg (by decide)]
  have inner : rawSteps "src" = ["src"] := by decide
  rw [inner, List.singleton_append, walk_directory (by decide) rfl, walk_dots,
    List.dropLast_concat, walk_directory (by decide) rfl]
  exact walk_file (by decide) rfl

theorem crossroads_beside : crossroads.arrive true (slashed "/w/src.py") =
    .ok ⟨["w", "src.py"], some (.file [] false)⟩ := by
  have steps : rawSteps (slashed "/w/src.py") = ["w", "src.py"] := by decide
  refine arrive_ok_iff.mpr ⟨by decide, by decide, by decide, ?_⟩
  rw [steps, if_pos (by decide), walk_directory (by decide) rfl]
  exact walk_file (by decide) rfl

/-- The detour goes through the link and back down. The file beside the directory, whose name starts
alike, is not in it. -/
theorem absolute_names_told_by_place_crossroads :
    relativePath crossroads (.str "/w/lib/../src//a.py") (some (Path.ofText "lib")) = .ok "a.py" ∧
      relativePath crossroads (.str "a.py") (some (Path.ofText "lib")) = .ok "a.py" ∧
      relativePath crossroads (.str "/w/src.py") (some (Path.ofText "lib")) = .ok "/w/src.py" := by
  have law := absolute_names_told_by_place crossroads_untangled crossroads_real
    (Path.normal_ofText "lib")
  have leads {s : String} {l : Location} {e : Entry}
      (arrives : crossroads.arrive true s = .ok ⟨l, some e⟩) : crossroads.LeadsTo (Path.ofText s) l :=
    (law.resolves _ (Path.normal_ofText s) l).mp (resolve_ofText crossroads_real arrives)
  have based : crossroads.BaseOf (Path.ofText "lib") (Path.ofText "lib") := by
    have text : (Path.ofText "lib").text = "lib" := by decide
    refine ⟨true, ?_, rfl⟩
    unfold isDirectory status open?
    rw [text, crossroads_root]
    rfl
  have told := (law.inside _ _ ["a.py"] "/w/lib/../src//a.py" based (leads crossroads_root)
    (by decide) (leads crossroads_detour)).1
  refine ⟨told, law.again _ _ told, law.outside _ "/w/src.py" based (by decide) ?_⟩
  intro home rest start there
  have same := there.functional (leads crossroads_beside)
  rw [start.functional (leads crossroads_root)] at same
  simp at same

/-- There is no answer where the name of the root is too long. -/
theorem not_every_name_is_told :
    ¬ ∀ (d : Disk) (root : Path) (s : String), d.Untangled → d.Real d.here → root.Normal →
      startsAtRoot (slashed s) = true → ∃ key, relativePath d (.str s) (some root) = .ok key := by
  intro claim
  obtain ⟨key, told⟩ := claim crossroads (Path.ofText longName) "/a/b.py" crossroads_untangled
    crossroads_real (Path.normal_ofText longName) (by decide)
  have refused : crossroads.isDirectory (Path.ofText longName) =
      .error (.refused .nameTooLong longName) := by
    unfold isDirectory
    rw [longName_refused]
    rfl
  cases told.symm.trans (relativePath_error (by decide) refused)

end LintHub
