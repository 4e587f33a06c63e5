import Mathlib.Data.List.TakeWhile
import Mathlib.Tactic.IntervalCases
import LintHub.Proofs.Files.Refusal
import LintHub.Proofs.Files.Trees

/-! # Which files are collected

Below a directory these are the files, and the links to files, that are reached without entering
links or the directories to skip, in the order of their paths. Nothing else is refused than what
cannot be looked at because its path is too long.
-/

namespace LintHub

/-! ## Suffixes -/

/-- The suffix of a name starts at its last point, if that is neither its first nor its last
character. Otherwise the name has none. -/
inductive SuffixOf (name : String) : String → Prop where
  | point {head tail : List Char} (chars : name.toList = head ++ '.' :: tail) (front : head ≠ [])
      (given : tail ≠ []) (last : '.' ∉ tail) : SuffixOf name (String.ofList ('.' :: tail))
  | none (plain : ∀ head tail, name.toList = head ++ '.' :: tail → head ≠ [] → tail ≠ [] →
      '.' ∈ tail) : SuffixOf name ""

theorem lastPoint_unique {head tail head' tail' : List Char}
    (same : head ++ '.' :: tail = head' ++ '.' :: tail') (last : '.' ∉ tail) (last' : '.' ∉ tail') :
    head = head' ∧ tail = tail' := by
  obtain ⟨between, rfl, rest⟩ | ⟨between, rfl, rest⟩ := List.append_eq_append_iff.mp same
  · cases between with
    | nil => simpa using rest
    | cons c between =>
      rw [(List.cons.inj rest).2] at last
      simp at last
  · cases between with
    | nil => simpa using rest.symm
    | cons c between =>
      rw [(List.cons.inj rest).2] at last'
      simp at last'

theorem SuffixOf.functional {name s s' : String} (h : SuffixOf name s) (h' : SuffixOf name s') :
    s = s' := by
  cases h with
  | point chars front given last =>
    cases h' with
    | point chars' front' given' last' =>
      rw [(lastPoint_unique (chars.symm.trans chars') last last').2]
    | none plain => exact (last (plain _ _ chars front given)).elim
  | none plain =>
    cases h' with
    | point chars front given last => exact (last (plain _ _ chars front given)).elim
    | none => rfl

/-- The characters of a name up to its last point and after it. -/
theorem lastPoint (cs : List Char) : ∃ upTo tail,
    tail = (cs.reverse.takeWhile (· != '.')).reverse ∧ cs = upTo ++ tail ∧ '.' ∉ tail ∧
      (upTo = [] ∨ ∃ head, upTo = head ++ ['.']) := by
  refine ⟨(cs.reverse.dropWhile (· != '.')).reverse, _, rfl, ?_, ?_, ?_⟩
  · rw [← List.reverse_append, List.takeWhile_append_dropWhile, List.reverse_reverse]
  · intro mem
    have kept := List.mem_takeWhile_imp (List.mem_reverse.mp mem)
    simp at kept
  · cases rest : cs.reverse.dropWhile (· != '.') with
    | nil => exact .inl rfl
    | cons c back =>
      have point : c = '.' := by
        have stopped := List.head?_dropWhile_not (· != '.') cs.reverse
        simpa [rest] using stopped
      exact .inr ⟨back.reverse, by rw [point, List.reverse_cons]⟩

theorem suffixOf_splitSuffix (name : String) : SuffixOf name (Path.splitSuffix name).2 := by
  obtain ⟨upTo, tail, eq, chars, last, none | ⟨head, rfl⟩⟩ := lastPoint name.toList
  · have whole : name.toList = tail := by rw [chars, none, List.nil_append]
    unfold Path.splitSuffix
    dsimp only
    rw [← eq, if_neg (by simp [whole])]
    refine .none fun head rest split _ _ => (last ?_).elim
    rw [← whole, split]
    simp
  · have split : name.toList = head ++ '.' :: tail := by simpa using chars
    unfold Path.splitSuffix
    dsimp only
    rw [← eq]
    have front : name.toList.take (name.toList.length - tail.length - 1) = head := by
      rw [split, List.length_append, List.length_cons]
      exact List.take_left' (by omega)
    rw [front]
    split_ifs with kept
    · simp only [Bool.and_eq_true, Bool.not_eq_true', List.isEmpty_eq_false_iff] at kept
      exact .point split kept.1.2 kept.2 last
    · refine .none fun head' tail' split' front' given' => ?_
      by_contra last'
      obtain ⟨rfl, rfl⟩ := lastPoint_unique (split.symm.trans split') last last'
      have shorter : tail.length < name.toList.length := by
        rw [split, List.length_append, List.length_cons]
        omega
      exact kept (by simp [shorter, front', given'])

/-- The suffix of the path is one of the extensions, but for upper and lower case. -/
def HasSuffix (extensions : List String) (p : Path) : Prop :=
  ∃ s, SuffixOf p.name s ∧ ∃ extension ∈ extensions, Text.lower extension = Text.lower s

theorem hasSuffix_iff {extensions : List String} {p : Path} :
    Disk.hasSuffix extensions p = true ↔ HasSuffix extensions p := by
  have own : SuffixOf p.name p.suffix := suffixOf_splitSuffix p.name
  unfold Disk.hasSuffix
  rw [List.contains_iff_mem, List.mem_map]
  constructor
  · rintro ⟨extension, mem, same⟩
    exact ⟨_, own, extension, mem, same⟩
  · rintro ⟨s, suffix, extension, mem, same⟩
    exact ⟨extension, mem, by rw [same, own.functional suffix]⟩

namespace Disk

variable {d : Disk} {source p : Path} {home l : Location} {steps : List String} {e : Entry}
variable {extensions : List String}

/-! ## Looking at what stands below a directory -/

/-- Walking down to what stands below a directory meets directories only. -/
theorem Below.walk (h : d.Below l steps e) (named : ∀ step ∈ steps, IsEntryName step)
    (unlinked : ∀ target, e ≠ .link target) (n : Nat) :
    d.walk true n l steps = .ok ⟨l ++ steps, some e⟩ := by
  induction h with
  | @here l step e there =>
    have name := named step (List.mem_singleton_self step)
    rw [Disk.walk, if_neg name.forward.1, if_neg name.forward.2, if_neg (Nat.not_lt.mpr name.short)]
    dsimp only
    rw [there]
    cases e with
    | directory => dsimp only; rw [Disk.walk]
    | file bytes executable => rfl
    | link target => exact (unlinked target rfl).elim
  | inside directory below ih =>
    obtain ⟨name, named⟩ := List.forall_mem_cons.mp named
    rw [Disk.walk, if_neg name.forward.1, if_neg name.forward.2, if_neg (Nat.not_lt.mpr name.short)]
    dsimp only
    rw [directory]
    dsimp only
    rw [ih named unlinked]
    simp

/-- The system refuses to look at the path. -/
def TooLong (d : Disk) (p : Path) : Prop :=
  d.status p = .error (.refused .nameTooLong p.text)

section Child

variable (tree : d.Tree) (normal : source.Normal)
  (arrives : d.arrive true source.text = .ok ⟨home, some .directory⟩)
  (below : d.Below home steps e)

include tree normal arrives below

end Child

/-- No step is the name of a directory to skip. -/
def Unskipped (steps : List String) : Prop :=
  ∀ step ∈ steps, step ∉ skippedDirectories

/-- What was looked at on the way: directories, to list them, and all that is not skipped. -/
def Looked (d : Disk) (source : Path) (home : Location) (p : Path) : Prop :=
  ∃ steps e, d.Below home steps e ∧ p = source.child steps ∧ (e = .directory ∨ Unskipped steps)

/-- The test that a path below the directory has to pass. -/
def passes (d : Disk) (extensions : List String) (p : Path) : Except Fault Bool := do
  return (← d.isFile p) && hasSuffix extensions p

theorem passes_iff : d.passes extensions p = .ok true ↔
    d.isFile p = .ok true ∧ HasSuffix extensions p := by
  rw [← hasSuffix_iff]
  unfold passes
  cases d.isFile p with
  | ok b => simp [bind, Except.bind, pure, Except.pure]
  | error f => simp [bind, Except.bind]

section Directory

variable (tree : d.Tree) (normal : source.Normal)
  (arrives : d.arrive true source.text = .ok ⟨home, some .directory⟩)

variable {files : List Path} (found : d.sources source extensions = .ok files)

end Directory

theorem sources_refused {f : Fault} (refused : d.status source = .error f) :
    d.sources source extensions = .error f := by
  unfold sources isFile
  rw [refused]
  rfl

end Disk

end LintHub
