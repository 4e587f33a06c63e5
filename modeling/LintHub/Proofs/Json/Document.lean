import LintHub.Proofs.Json.Line

/-! # Documents over several lines

A document that is written with one item to a line is read as the same document. The text holds
printable ASCII characters and line breaks only.
-/

namespace LintHub.Json

open Text

theorem isGap_breakLine (depth : Nat) : IsGap (breakLine depth).toList := by
  intro c h
  rw [breakLine, String.toList_ofList, List.mem_cons, List.mem_replicate] at h
  rcases h with rfl | ⟨-, rfl⟩ <;> rfl

/-! ## Reading -/

mutual

/-- By recursion on the value: each list and object spells itself if its parts do. -/
theorem spells_indented (depth : Nat) : ∀ v, Plain v → Spells (writeIndented depth v).toList v
  | .null, plain => spells_write .null plain
  | .bool b, plain => spells_write (.bool b) plain
  | .int i, plain => spells_write (.int i) plain
  | .float x, plain => spells_write (.float x) plain
  | .str s, plain => spells_write (.str s) plain
  | .arr [], plain => spells_write (.arr []) plain
  | .obj [], plain => spells_write (.obj []) plain
  | .arr (v :: vs), plain => by
    have items := spells_items (depth + 1) (v :: vs) plain
    have text := spells_arr (isGap_breakLine (depth + 1)) (isGap_breakLine depth) items
      (List.cons_ne_nil v vs) (isGap_breakLine (depth + 1))
    rw [writeIndented]
    simpa [String.toList_intercalate] using text
  | .obj (f :: fs), plain => by
    have fields := spells_fields (depth + 1) (f :: fs) plain.2
    have text := spells_obj (isGap_breakLine (depth + 1)) (isGap_breakLine depth) fields
      (List.cons_ne_nil f fs) plain.1 (isGap_breakLine (depth + 1))
    rw [writeIndented]
    simpa [String.toList_intercalate] using text

theorem spells_items (depth : Nat) : ∀ vs, PlainItems vs →
    List.Forall₂ Spells ((indentedItems depth vs).map String.toList) vs
  | [], _ => .nil
  | v :: vs, plain => .cons (spells_indented depth v plain.1) (spells_items depth vs plain.2)

theorem spells_fields (depth : Nat) : ∀ fs, PlainFields fs →
    List.Forall₂ SpellsField ((indentedFields depth fs).map String.toList) fs
  | [], _ => .nil
  | (n, v) :: fs, plain => by
    refine .cons ⟨_, _, isGap_blank, ?_, spells_indented depth v plain.1⟩
      (spells_fields depth fs plain.2)
    simp

end

theorem read_writeIndented {v : Json} (plain : Plain v) : read (writeIndented 0 v) = .ok v :=
  read_of_spells (spells_indented 0 v plain) isGap_nil (List.append_nil _).symm

/-! ## What is written -/

/-- Printable characters and line breaks only. -/
def IsLined (cs : List Char) : Prop :=
  ∀ c ∈ cs, IsPrintable c ∨ c = '\n'

theorem IsLined.ascii {cs : List Char} (h : IsLined cs) : ∀ c ∈ cs, c.toNat < 128 := by
  intro c mem
  rcases h c mem with printed | rfl
  · exact Nat.lt_trans printed.2 (by decide)
  · decide

theorem IsLined.unreturned {cs : List Char} (h : IsLined cs) : '\r' ∉ cs := by
  intro mem
  rcases h _ mem with printed | eq
  · exact absurd printed.1 (by decide)
  · exact absurd eq (by decide)

theorem isLined_append {cs ds : List Char} : IsLined (cs ++ ds) ↔ IsLined cs ∧ IsLined ds := by
  simp only [IsLined, List.mem_append, or_imp, forall_and]

theorem isLined_write (v : Json) : IsLined (write v).toList :=
  fun c h => .inl (write_isPrintable v c h)

theorem isLined_breakLine (depth : Nat) : IsLined (breakLine depth).toList := by
  intro c h
  rw [breakLine, String.toList_ofList, List.mem_cons, List.mem_replicate] at h
  rcases h with rfl | ⟨-, rfl⟩
  · exact .inr rfl
  · exact .inl (by decide)

/-- The brackets, the breaks and the commas between parts that are lined. -/
theorem isLined_bracketed (start finish : Char) (depth : Nat) {ts : List String}
    (front : IsPrintable start) (back : IsPrintable finish) (parts : ∀ t ∈ ts, IsLined t.toList) :
    IsLined (start :: ((breakLine (depth + 1)).toList ++
      ((',' :: (breakLine (depth + 1)).toList).intercalate (ts.map String.toList) ++
      ((breakLine depth).toList ++ [finish])))) := by
  have comma : IsLined ([','] ++ (breakLine (depth + 1)).toList) :=
    isLined_append.mpr ⟨by simp [IsLined, IsPrintable], isLined_breakLine _⟩
  have inside : IsLined _ := forall_mem_intercalate comma (List.forall_mem_map.mpr parts)
  have close : IsLined [finish] := by simpa [IsLined] using .inl back
  rw [← List.singleton_append, isLined_append, isLined_append, isLined_append, isLined_append]
  exact ⟨by simpa [IsLined] using .inl front, isLined_breakLine _, inside, isLined_breakLine _,
    close⟩

mutual

theorem isLined_indented (depth : Nat) : ∀ v, IsLined (writeIndented depth v).toList
  | .null => isLined_write .null
  | .bool b => isLined_write (.bool b)
  | .int i => isLined_write (.int i)
  | .float x => isLined_write (.float x)
  | .str s => isLined_write (.str s)
  | .arr [] => isLined_write (.arr [])
  | .obj [] => isLined_write (.obj [])
  | .arr (v :: vs) => by
    have lined := isLined_bracketed '[' ']' depth (by decide) (by decide)
      (isLined_items (depth + 1) (v :: vs))
    rw [writeIndented]
    simpa [String.toList_intercalate] using lined
  | .obj (f :: fs) => by
    have lined := isLined_bracketed '{' '}' depth (by decide) (by decide)
      (isLined_fields (depth + 1) (f :: fs))
    rw [writeIndented]
    simpa [String.toList_intercalate] using lined

theorem isLined_items (depth : Nat) : ∀ vs, ∀ t ∈ indentedItems depth vs, IsLined t.toList
  | [] => by simp [indentedItems]
  | v :: vs => by
    rw [indentedItems, List.forall_mem_cons]
    exact ⟨isLined_indented depth v, isLined_items depth vs⟩

theorem isLined_fields (depth : Nat) : ∀ fs, ∀ t ∈ indentedFields depth fs, IsLined t.toList
  | [] => by simp [indentedFields]
  | (n, v) :: fs => by
    rw [indentedFields, List.forall_mem_cons]
    refine ⟨?_, isLined_fields depth fs⟩
    rw [String.toList_append, String.toList_append, isLined_append, isLined_append]
    exact ⟨⟨isLined_write (.str n), by simp [IsLined, IsPrintable]⟩, isLined_indented depth v⟩

end

end LintHub.Json
