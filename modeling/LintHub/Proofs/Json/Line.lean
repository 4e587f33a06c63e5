import LintHub.Proofs.Json.Decimals
import LintHub.Proofs.Json.Layout

/-! # Documents on one line

What is written on one line holds printable ASCII characters only, so no line break stands in it. It
is read as the document that was written, floating-point numbers included.
-/

namespace LintHub.Json

open Text

mutual

/-- The integers of the document have few enough digits to be written, and the names of an object
differ. -/
def Plain : Json → Prop
  | int i => i.natAbs < 10 ^ digitLimit
  | arr items => PlainItems items
  | obj fields => (Fields.names fields).Nodup ∧ PlainFields fields
  | _ => True

def PlainItems : List Json → Prop
  | [] => True
  | v :: vs => Plain v ∧ PlainItems vs

def PlainFields : List (String × Json) → Prop
  | [] => True
  | (_, v) :: fs => Plain v ∧ PlainFields fs

end

theorem plainItems_iff {vs : List Json} : PlainItems vs ↔ ∀ v ∈ vs, Plain v := by
  induction vs with
  | nil => simp [PlainItems]
  | cons v vs ih => simp [PlainItems, ih]

theorem plainFields_iff {fs : Fields} : PlainFields fs ↔ ∀ f ∈ fs, Plain f.2 := by
  induction fs with
  | nil => simp [PlainFields]
  | cons f fs ih => simp [PlainFields, ih]

/-! ## Reading -/

theorem spells_float (x : Binary64) : Spells (write (.float x)).toList (.float x) := by
  rw [write]
  cases x with
  | finite negative m e fits =>
    obtain ⟨whole, fraction, exponent, proper, written, value⟩ := finite_parts negative fits
    rw [written]
    exact .number proper (value _)
  | infinite negative =>
    cases negative with
    | false => exact .atom ⟨'I', _, rfl, by decide⟩ fun _ _ _ => rfl
    | true => exact .atom ⟨'-', _, rfl, by decide⟩ fun _ _ _ => rfl
  | notANumber => exact .atom ⟨'N', _, rfl, by decide⟩ fun _ _ _ => rfl

theorem spells_empty_arr : Spells (write (.arr [])).toList (.arr []) := by
  refine .of_front (by decide) fun fuel rest offset _ _ => ⟨offset + 1 + 0 + 1, ?_⟩
  show readValue (fuel + 1) ⟨'[' :: ([] ++ ']' :: rest), offset⟩ = _
  rw [readValue_bracket, skipSpace_gap isGap_nil (by simp [isSpace])]
  rfl

theorem spells_empty_obj : Spells (write (.obj [])).toList (.obj []) := by
  refine .of_front (by decide) fun fuel rest offset _ _ => ⟨offset + 1 + 0 + 1, ?_⟩
  show readValue (fuel + 1) ⟨'{' :: ([] ++ '}' :: rest), offset⟩ = _
  rw [readValue_brace, skipSpace_gap isGap_nil (by simp [isSpace])]
  rfl

theorem isGap_blank : IsGap [' '] := by
  intro c h
  rw [List.mem_singleton.mp h]
  rfl

mutual

/-- By recursion on the value: each list and object spells itself if its parts do. -/
theorem spells_write : ∀ v, Plain v → Spells (write v).toList v
  | .null, _ => spells_null
  | .bool b, _ => spells_bool b
  | .int _, short => spells_int short
  | .float x, _ => spells_float x
  | .str s, _ => spells_text s
  | .arr [], _ => spells_empty_arr
  | .obj [], _ => spells_empty_obj
  | .arr (v :: vs), plain => by
    have items := spells_writeItems (v :: vs) plain
    have text := spells_arr isGap_blank isGap_nil items (List.cons_ne_nil v vs) isGap_nil
    rw [write]
    simpa [String.toList_intercalate] using text
  | .obj (f :: fs), plain => by
    have fields := spells_writeFields (f :: fs) plain.2
    have text := spells_obj isGap_blank isGap_nil fields (List.cons_ne_nil f fs) plain.1 isGap_nil
    rw [write]
    simpa [String.toList_intercalate] using text

theorem spells_writeItems : ∀ vs, PlainItems vs →
    List.Forall₂ Spells ((writeItems vs).map String.toList) vs
  | [], _ => .nil
  | v :: vs, plain => .cons (spells_write v plain.1) (spells_writeItems vs plain.2)

theorem spells_writeFields : ∀ fs, PlainFields fs →
    List.Forall₂ SpellsField ((writeFields fs).map String.toList) fs
  | [], _ => .nil
  | (n, v) :: fs, plain => by
    refine .cons ⟨_, _, isGap_blank, ?_, spells_write v plain.1⟩ (spells_writeFields fs plain.2)
    simp

end

/-- What is spelled is read, and white space behind it does not matter. -/
theorem read_of_spells {s : String} {t gap : List Char} {v : Json} (spelled : Spells t v)
    (space : IsGap gap) (text : s.toList = t ++ gap) : read s = .ok v := by
  obtain ⟨c, cs, first, printed, -⟩ := spelled.head
  have mark : s.toList.head? ≠ some (Char.ofNat 0xfeff) := by
    rw [text, first]
    intro eq
    rw [Option.some.inj eq] at printed
    exact absurd printed.2 (by decide)
  have enough : t.length ≤ 2 * s.toList.length + 2 := by
    rw [text, List.length_append]
    omega
  obtain ⟨o, value⟩ := spelled.read _ gap 0 enough (by simpa using ends_gap space ends_nil)
  have front : Cursor.skipSpace ⟨[] ++ (t ++ gap), 0⟩ = _ :=
    skipSpace_gap isGap_nil (spelled.not_space gap)
  have behind : Cursor.skipSpace ⟨gap ++ [], o⟩ = _ := skipSpace_gap space (by simp)
  rw [List.nil_append, List.length_nil, Nat.add_zero, ← text] at front
  rw [List.append_nil] at behind
  rw [← text] at value
  have whole : readChars s.toList = .ok v := by
    unfold readChars
    rw [if_neg (by simpa using mark), front, value]
    dsimp only
    rw [behind]
    rfl
  rw [read, whole]

theorem read_write {v : Json} (plain : Plain v) : read (write v) = .ok v :=
  read_of_spells (spells_write v plain) isGap_nil (List.append_nil _).symm

/-! ## What is written -/

/-- What holds of the characters of the parts and of what stands between them. -/
theorem forall_mem_intercalate {P : Char → Prop} {sep : List Char} {ts : List (List Char)}
    (between : ∀ c ∈ sep, P c) (parts : ∀ t ∈ ts, ∀ c ∈ t, P c) :
    ∀ c ∈ sep.intercalate ts, P c := by
  induction ts with
  | nil => simp
  | cons t ts ih =>
    rw [List.forall_mem_cons] at parts
    cases ts with
    | nil => simpa using parts.1
    | cons u ts =>
      rw [List.intercalate_cons_cons]
      simp only [List.forall_mem_append]
      exact ⟨⟨parts.1, between⟩, ih parts.2⟩

theorem intText_isPrintable (i : Int) : ∀ c ∈ (intText i).toList, IsPrintable c := by
  rw [← numberChars_int]
  exact numberChars_isPrintable _ (proper_int i.natAbs)

/-- The brackets, and a comma and a blank between printable parts. -/
theorem bracketed_isPrintable (start finish : Char) {ts : List String}
    (front : IsPrintable start) (back : IsPrintable finish)
    (parts : ∀ t ∈ ts, ∀ c ∈ t.toList, IsPrintable c) :
    ∀ c ∈ start :: ([',', ' '].intercalate (ts.map String.toList) ++ [finish]), IsPrintable c := by
  have between : ∀ c ∈ [',', ' '], IsPrintable c := by simp [IsPrintable]
  have inside := forall_mem_intercalate between (List.forall_mem_map.mpr parts)
  rw [List.forall_mem_cons, List.forall_mem_append, List.forall_mem_singleton]
  exact ⟨front, inside, back⟩

mutual

theorem write_isPrintable : ∀ v, ∀ c ∈ (write v).toList, IsPrintable c
  | .null => by simp [write, IsPrintable]
  | .bool b => by cases b <;> simp [write, IsPrintable]
  | .int i => intText_isPrintable i
  | .float x => writeFloat_isPrintable x
  | .str s => writeText_isPrintable s
  | .arr vs => by
    have printed := bracketed_isPrintable '[' ']' (by decide) (by decide)
      (writeItems_isPrintable vs)
    rw [write]
    simpa [String.toList_intercalate] using printed
  | .obj fs => by
    have printed := bracketed_isPrintable '{' '}' (by decide) (by decide)
      (writeFields_isPrintable fs)
    rw [write]
    simpa [String.toList_intercalate] using printed

theorem writeItems_isPrintable : ∀ vs, ∀ t ∈ writeItems vs, ∀ c ∈ t.toList, IsPrintable c
  | [] => by simp [writeItems]
  | v :: vs => by
    rw [writeItems, List.forall_mem_cons]
    exact ⟨write_isPrintable v, writeItems_isPrintable vs⟩

theorem writeFields_isPrintable : ∀ fs, ∀ t ∈ writeFields fs, ∀ c ∈ t.toList, IsPrintable c
  | [] => by simp [writeFields]
  | (n, v) :: fs => by
    rw [writeFields, List.forall_mem_cons]
    refine ⟨?_, writeFields_isPrintable fs⟩
    rw [String.toList_append, String.toList_append, List.forall_mem_append, List.forall_mem_append]
    exact ⟨⟨writeText_isPrintable n, by simp [IsPrintable]⟩, write_isPrintable v⟩

end

mutual

theorem integersFit_of_plain : ∀ v, Plain v → integersFit v = true
  | .null, _ | .bool _, _ | .float _, _ | .str _, _ => rfl
  | .int i, short => by
    rw [integersFit, decide_eq_true_eq]
    exact (natText_length_le_iff (by decide)).mpr short
  | .arr vs, plain => itemsFit_of_plain vs plain
  | .obj fs, plain => fieldsFit_of_plain fs plain.2

theorem itemsFit_of_plain : ∀ vs, PlainItems vs → itemsFit vs = true
  | [], _ => rfl
  | v :: vs, plain => by
    rw [itemsFit, integersFit_of_plain v plain.1, itemsFit_of_plain vs plain.2]
    rfl

theorem fieldsFit_of_plain : ∀ fs, PlainFields fs → fieldsFit fs = true
  | [], _ => rfl
  | (n, v) :: fs, plain => by
    rw [fieldsFit, integersFit_of_plain v plain.1, fieldsFit_of_plain fs plain.2]
    rfl

end

end LintHub.Json
