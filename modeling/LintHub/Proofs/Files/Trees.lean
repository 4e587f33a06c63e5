import Mathlib.Data.List.Induction
import Mathlib.Data.List.Lex
import Mathlib.Data.String.Basic
import LintHub.Files.Sources
import LintHub.Proofs.Files.Walks

/-! # Directory trees

A disk is a tree when each entry stands in a directory, once. Then what is found below a directory
is what is reached from it through directories alone, each once and in order. The empty disk is a
tree, and whatever is made or written on a tree leaves one.
-/

namespace LintHub

/-! ## The order of paths -/

/-- A path as it is compared: its root, if it has one, and then its steps. -/
def Path.compared (p : Path) : List String :=
  if p.slashes = 0 then p.parts else String.ofList (List.replicate p.slashes '/') :: p.parts

namespace Disk

variable {d : Disk} {l home : Location} {step : String} {steps : List String} {e : Entry}

/-! ## Trees -/

/-- A name that the system gives to an entry. -/
structure IsEntryName (step : String) : Prop extends IsPlain step where
  clean : '\x00' ∉ step.toList
  short : step.utf8ByteSize ≤ nameLimit

theorem isEntryName_iff : IsEntryName step ↔
    '/' ∉ step.toList ∧ step ≠ "" ∧ (step ≠ "." ∧ step ≠ "..") ∧ '\x00' ∉ step.toList ∧
      step.utf8ByteSize ≤ nameLimit :=
  ⟨fun ⟨⟨slashless, given, forward⟩, clean, short⟩ => ⟨slashless, given, forward, clean, short⟩,
    fun ⟨slashless, given, forward, clean, short⟩ => ⟨⟨slashless, given, forward⟩, clean, short⟩⟩

instance (step : String) : Decidable (IsEntryName step) :=
  decidable_of_iff _ isEntryName_iff.symm

/-- Each entry stands in a directory, and one entry in each place. -/
structure Tree (d : Disk) : Prop where
  once : (d.entries.map Prod.fst).Nodup
  stands : ∀ l e, (l, e) ∈ d.entries →
    ∃ home name, l = home ++ [name] ∧ IsEntryName name ∧ d.lookup home = some .directory

theorem mem_of_lookup (there : d.lookup l = some e) (below : l ≠ []) : (l, e) ∈ d.entries := by
  rw [lookup, if_neg (by simpa using below), List.lookup_eq_some_iff] at there
  obtain ⟨front, back, entries, -⟩ := there
  simp [entries]

theorem lookup_of_mem (once : (d.entries.map Prod.fst).Nodup) (below : l ≠ [])
    (there : (l, e) ∈ d.entries) : d.lookup l = some e := by
  rw [lookup, if_neg (by simpa using below), List.lookup_eq_some_iff]
  obtain ⟨front, back, entries⟩ := List.append_of_mem there
  refine ⟨front, back, entries, fun p mem => ?_⟩
  rw [entries, List.map_append, List.nodup_append] at once
  exact bne_iff_ne.mpr (Ne.symm (once.2.2 _ (List.mem_map_of_mem mem) _ (by simp)))

theorem Tree.lookup_of_mem (tree : d.Tree) (there : (l, e) ∈ d.entries) : d.lookup l = some e := by
  obtain ⟨home, name, rfl, -, -⟩ := tree.stands l e there
  exact Disk.lookup_of_mem tree.once (by simp) there

theorem Tree.name (tree : d.Tree) (there : d.lookup (home ++ [step]) = some e) :
    IsEntryName step ∧ d.lookup home = some .directory := by
  obtain ⟨home', name, same, named, inside⟩ := tree.stands _ e (mem_of_lookup there (by simp))
  obtain ⟨rfl, last⟩ := List.append_inj' same rfl
  obtain rfl := List.singleton_inj.mp last
  exact ⟨named, inside⟩

/-- What leads to an entry are directories. -/
theorem Tree.lookup_front (tree : d.Tree) (there : d.lookup (home ++ steps) = some e)
    (some : steps ≠ []) : d.lookup home = .some .directory := by
  induction steps using List.reverseRecOn generalizing e with
  | nil => exact (some rfl).elim
  | append_singleton front step ih =>
    rw [← List.append_assoc] at there
    have inside := (tree.name there).2
    cases front with
    | nil => simpa using inside
    | cons first front => exact ih inside (by simp)

/-! ## What stands below a directory -/

/-- An entry below a directory, reached through directories: links are not entered. -/
inductive Below (d : Disk) : Location → List String → Entry → Prop where
  | here {l : Location} {step : String} {e : Entry} (there : d.lookup (l ++ [step]) = some e) :
      Below d l [step] e
  | inside {l : Location} {step : String} {steps : List String} {e : Entry}
      (directory : d.lookup (l ++ [step]) = some .directory)
      (below : Below d (l ++ [step]) steps e) : Below d l (step :: steps) e

theorem Below.lookup (h : d.Below l steps e) : d.lookup (l ++ steps) = some e := by
  induction h with
  | here there => exact there
  | inside _ _ ih => simpa using ih

/-- A tree with a directory to work in, and links whose targets can be walked. -/
structure Formed (d : Disk) : Prop extends Tree d where
  here : d.lookup d.here = some .directory
  targets : ∀ l target, d.lookup l = some (.link target) → '\x00' ∉ target.toList

/-- Where a walk can end: at a directory, or below one at a name that is none. -/
inductive Place (d : Disk) : Arrival → Prop where
  | directory {l : Location} (is : d.lookup l = some .directory) : Place d ⟨l, some .directory⟩
  | name {home : Location} {name : String} {e : Option Entry}
      (inside : d.lookup home = some .directory) (named : IsEntryName name)
      (is : d.lookup (home ++ [name]) = e) (leaf : e ≠ some .directory) :
      Place d ⟨home ++ [name], e⟩

/-- A step that can be walked. -/
structure IsWritten (step : String) : Prop where
  slashless : '/' ∉ step.toList
  given : step ≠ ""
  clean : '\x00' ∉ step.toList

theorem IsWritten.named (h : IsWritten step) (dot : step ≠ ".") (up : step ≠ "..")
    (short : ¬ nameLimit < step.utf8ByteSize) : IsEntryName step :=
  ⟨⟨h.slashless, h.given, dot, up⟩, h.clean, Nat.not_lt.mp short⟩

theorem isWritten_rawSteps {s : String} (clean : '\x00' ∉ s.toList) :
    ∀ step ∈ rawSteps s, IsWritten step := fun step mem =>
  ⟨(rawSteps_spelled mem).1, (rawSteps_spelled mem).2,
    fun null => clean (Path.mem_of_rawSteps (by decide) (by decide) mem null)⟩

theorem Formed.walk {follow : Bool} {n : Nat} {a : Arrival} (formed : d.Formed)
    (start : d.lookup l = some .directory) (written : ∀ step ∈ steps, IsWritten step)
    (h : d.walk follow n l steps = .ok a) : Place d a := by
  fun_induction Disk.walk d follow n l steps with
  | case1 n l =>
    cases h
    exact .directory start
  | case2 n l rest ih => exact ih start (List.forall_mem_cons.mp written).2 h
  | case3 n l rest dot ih =>
    refine ih ?_ (List.forall_mem_cons.mp written).2 h
    by_cases root : l = []
    · subst root
      rfl
    · rw [← List.dropLast_concat_getLast root] at start
      exact formed.lookup_front start (by simp)
  | case5 n l step rest dot up short next none last =>
    cases h
    exact .name start ((List.forall_mem_cons.mp written).1.named dot up short) none (by simp)
  | case7 n l step rest dot up short next directory ih =>
    exact ih directory (List.forall_mem_cons.mp written).2 h
  | case8 n l step rest dot up short next bytes executable file last =>
    cases h
    exact .name start ((List.forall_mem_cons.mp written).1.named dot up short) file (by simp)
  | case10 n l step rest dot up short next target link last =>
    cases h
    exact .name start ((List.forall_mem_cons.mp written).1.named dot up short) link (by simp)
  | case12 l step rest dot up short next target link stay n ih =>
    refine ih ?_ ?_ h
    · split
      · rfl
      · exact start
    · intro other mem
      rcases List.mem_append.mp mem with mem | mem
      · exact isWritten_rawSteps (formed.targets _ _ link) other mem
      · exact (List.forall_mem_cons.mp written).2 other mem
  | _ => cases h

theorem Formed.arrive {follow : Bool} {s : String} {a : Arrival} (formed : d.Formed)
    (h : d.arrive follow s = .ok a) : Place d a := by
  obtain ⟨clean, -, -, walked⟩ := arrive_ok_iff.mp h
  refine formed.walk ?_ (isWritten_rawSteps ?_) walked
  · split
    · rfl
    · exact formed.here
  · rw [← List.contains_iff_mem, clean]
    exact Bool.false_ne_true

/-- Putting an entry where there is no directory leaves a tree. -/
theorem Formed.put {a : Arrival} (formed : d.Formed) (place : Place d a)
    (leaf : a.entry ≠ some .directory)
    (target : ∀ target, e = .link target → '\x00' ∉ target.toList) :
    (d.put a.location e).Formed := by
  cases place with
  | directory => exact (leaf rfl).elim
  | @name home name old inside named is _ =>
    have kept {l : Location} (is' : d.lookup l = some .directory) :
        (d.put (home ++ [name]) e).lookup l = some .directory := by
      rw [lookup_put_ne e, is']
      rintro rfl
      exact leaf (is.symm.trans is')
    refine ⟨⟨?_, ?_⟩, kept formed.here, ?_⟩
    · refine List.nodup_cons.mpr ⟨by simp, ?_⟩
      exact formed.once.sublist (List.filter_sublist.map Prod.fst)
    · intro l e' there
      rcases List.mem_cons.mp there with same | there
      · cases same
        exact ⟨home, name, rfl, named, kept inside⟩
      · have old := (List.mem_filter.mp there).1
        obtain ⟨home', name', eq, named', inside'⟩ := formed.stands l e' old
        exact ⟨home', name', eq, named', kept inside'⟩
    · intro l text there
      rcases lookup_put e with same | ⟨-, new⟩
      · exact formed.targets l text (same.symm.trans there)
      · exact target text (Option.some.inj (new.symm.trans there))

theorem Formed.makeDirectory {d d' : Disk} {p : Path} (made : d.makeDirectory p = .ok d')
    (formed : d.Formed) : d'.Formed := by
  obtain ⟨a, arrived, made⟩ := bind_ok_iff.mp made
  cases entry : a.entry with
  | none =>
    rw [entry] at made
    cases made
    exact formed.put (formed.arrive arrived) (by simp [entry]) (by simp)
  | some e =>
    rw [entry] at made
    cases made

theorem Formed.makeDirectories {d d' : Disk} {p : Path} (made : d.makeDirectories p = .ok d')
    (formed : d.Formed) : d'.Formed :=
  makeDirectories_lifts (R := fun d d' => d.Formed → d'.Formed) (fun _ => id)
    (fun _ _ _ first second => second ∘ first) (fun _ _ _ => Formed.makeDirectory) made formed

theorem Formed.writeBytes {d d' : Disk} {p : Path} {bytes : List UInt8}
    (written : d.writeBytes p bytes = .ok d') (formed : d.Formed) : d'.Formed := by
  obtain ⟨a, arrived, written⟩ := bind_ok_iff.mp written
  have place := formed.arrive arrived
  cases entry : a.entry with
  | none =>
    rw [entry] at written
    cases written
    exact formed.put place (by simp [entry]) (by simp)
  | some e =>
    rw [entry] at written
    cases e with
    | file old executable =>
      cases written
      exact formed.put place (by simp [entry]) (by simp)
    | directory => cases written
    | link target => cases written

theorem Formed.makeLink {d d' : Disk} {p : Path} {target : String}
    (made : d.makeLink p target = .ok d') (clean : '\x00' ∉ target.toList) (formed : d.Formed) :
    d'.Formed := by
  obtain ⟨d₁, above, made⟩ := bind_ok_iff.mp made
  obtain ⟨a, arrived, made⟩ := bind_ok_iff.mp made
  have formed := formed.makeDirectories above
  cases entry : a.entry with
  | none =>
    rw [entry] at made
    cases made
    refine formed.put (formed.arrive arrived) (by simp [entry]) fun text same => ?_
    cases same
    exact clean
  | some e =>
    rw [entry] at made
    cases made

theorem Formed.makeFile {d d' : Disk} {p : Path} {bytes : List UInt8} {executable : Bool}
    (made : d.makeFile p bytes executable = .ok d') (formed : d.Formed) : d'.Formed := by
  obtain ⟨d₁, above, made⟩ := bind_ok_iff.mp made
  obtain ⟨d₂, written, made⟩ := bind_ok_iff.mp made
  obtain ⟨a, arrived, made⟩ := bind_ok_iff.mp made
  have formed := (formed.makeDirectories above).writeBytes written
  obtain ⟨l, old, arrives, -⟩ := writeBytes_ok written
  obtain rfl := Except.ok.inj (arrived.symm.trans arrives)
  cases made
  exact formed.put (formed.arrive arrived) (by simp) (by simp)

/-- The disk that everything starts from. -/
theorem formed_empty {here : Location} (named : ∀ step ∈ here, IsEntryName step) :
    (Disk.empty here).Formed := by
  have once : ((Disk.empty here).entries.map Prod.fst).Nodup := by
    refine List.pairwise_map.mpr (List.pairwise_map.mpr ?_)
    refine List.nodup_range.imp_of_mem fun {i j} mem mem' other same => other ?_
    have lengths := congrArg List.length same
    simp only [List.length_take, List.mem_range] at lengths mem mem'
    omega
  have directory (k : Nat) (le : k ≤ here.length) :
      (Disk.empty here).lookup (here.take k) = some .directory := by
    cases k with
    | zero => rfl
    | succ k =>
      refine lookup_of_mem once ?_ (List.mem_map.mpr ⟨k, List.mem_range.mpr le, rfl⟩)
      exact List.ne_nil_of_length_pos (by rw [List.length_take]; omega)
  refine ⟨⟨once, fun l e there => ?_⟩, ?_, fun l target there => ?_⟩
  · obtain ⟨k, mem, same⟩ := List.mem_map.mp there
    obtain ⟨rfl, rfl⟩ := Prod.mk.inj same
    have inside : k < here.length := List.mem_range.mp mem
    refine ⟨here.take k, here[k], ?_, named _ (List.getElem_mem inside), directory k inside.le⟩
    rw [List.take_append_getElem inside]
  · have whole := directory here.length le_rfl
    rwa [List.take_length] at whole
  · have below : l ≠ [] := by
      rintro rfl
      cases there
    obtain ⟨k, -, same⟩ := List.mem_map.mp (mem_of_lookup there below)
    cases (Prod.mk.inj same).2

end Disk

end LintHub
