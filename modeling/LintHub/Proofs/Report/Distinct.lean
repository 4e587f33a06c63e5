import LintHub.Proofs.Work.Faults
import LintHub.Report.Dedup
import Mathlib.Data.List.Induction

/-! # Issues without repeats

Issues have keys exactly if their files and rules can be keys. Of the issues with one key the first
one stays, wherever the issues are cut into groups that lose their own repeats before.
-/

namespace LintHub

/-! ## Keys -/

/-- A value that can be a key. -/
def Json.IsKey (v : Json) : Prop :=
  v.kind ≠ .list ∧ v.kind ≠ .object

theorem toScalar_ok_iff {v : Json} : (∃ s, v.toScalar = .ok s) ↔ v.IsKey := by
  cases v with
  | arr vs => exact ⟨fun ⟨_, h⟩ => (nomatch h), fun h => (h.1 rfl).elim⟩
  | obj fs => exact ⟨fun ⟨_, h⟩ => (nomatch h), fun h => (h.2 rfl).elim⟩
  | _ => exact ⟨fun _ => ⟨nofun, nofun⟩, fun _ => ⟨_, rfl⟩⟩

/-- An issue that has a key. -/
def Issue.Keyed (i : Issue) : Prop :=
  i.filePath.IsKey ∧ i.ruleId.IsKey

theorem key_ok_iff {i : Issue} : (∃ k, i.key = .ok k) ↔ i.Keyed := by
  unfold Issue.Keyed Issue.key
  simp only [bind_ok_iff, ← toScalar_ok_iff]
  constructor
  · rintro ⟨k, file, hfile, rule, hrule, -⟩
    exact ⟨⟨file, hfile⟩, rule, hrule⟩
  · rintro ⟨⟨file, hfile⟩, rule, hrule⟩
    exact ⟨_, file, hfile, rule, hrule, rfl⟩

theorem withKeys_ok_iff {is : List Issue} : (∃ es, withKeys is = .ok es) ↔ ∀ i ∈ is, i.Keyed := by
  unfold withKeys
  rw [mapM_ok_iff]
  simp only [map_ok_iff, ← key_ok_iff]
  constructor
  · intro h i hi
    obtain ⟨-, k, hk, -⟩ := h i hi
    exact ⟨k, hk⟩
  · intro h i hi
    obtain ⟨k, hk⟩ := h i hi
    exact ⟨_, k, hk, rfl⟩

/-- Entries that stand under the keys of their own issues. -/
def Keyed.Own (es : Keyed) : Prop :=
  ∀ e ∈ es, e.2.key = .ok e.1

/-- The entries are the issues, each with its own key. -/
theorem withKeys_eq_ok_iff {is : List Issue} {es : Keyed} :
    withKeys is = .ok es ↔ es.map (·.2) = is ∧ es.Own := by
  induction is generalizing es with
  | nil =>
    rw [show withKeys [] = .ok [] from rfl, List.map_eq_nil_iff]
    constructor
    · rintro ⟨⟩
      exact ⟨rfl, fun e he => (nomatch he)⟩
    · rintro ⟨rfl, -⟩
      rfl
  | cons i is ih =>
    have step : withKeys (i :: is) =
        i.key.map (·, i) >>= fun e => withKeys is >>= fun es => pure (e :: es) := List.mapM_cons ..
    rw [step]
    simp only [bind_ok_iff, map_ok_iff, ih]
    constructor
    · rintro ⟨-, ⟨k, hk, rfl⟩, rest, ⟨rfl, own⟩, h⟩
      cases h
      exact ⟨rfl, List.forall_mem_cons.mpr ⟨hk, own⟩⟩
    · rintro ⟨issues, own⟩
      cases es with
      | nil => cases issues
      | cons e es =>
        cases issues
        rw [Keyed.Own, List.forall_mem_cons] at own
        exact ⟨e, ⟨e.1, own.1, rfl⟩, es, ⟨rfl, own.2⟩, rfl⟩

/-! ## The first with each key -/

section FirstByKey

variable {κ α : Type} [DecidableEq κ]

theorem firstByKey_sublist (seen : List κ) (es : List (κ × α)) :
    (firstByKey seen es).Sublist es := by
  fun_induction firstByKey seen es with
  | case1 => exact .slnil
  | case2 seen k a rest old ih => exact .cons _ ih
  | case3 seen k a rest new ih => exact .cons_cons _ ih

theorem mem_firstByKey {seen : List κ} {es : List (κ × α)} {k : κ} {a : α} :
    (k, a) ∈ firstByKey seen es ↔ k ∉ seen ∧ es.lookup k = some a := by
  fun_induction firstByKey seen es with
  | case1 => simp
  | case2 seen k' b rest old ih =>
    rw [ih, List.lookup_cons]
    by_cases same : k = k'
    · subst same
      simp [old]
    · rw [beq_false_of_ne same]
  | case3 seen k' b rest new ih =>
    rw [List.mem_cons, ih, List.lookup_cons, List.mem_cons]
    by_cases same : k = k'
    · subst same
      simp [new, eq_comm]
    · rw [beq_false_of_ne same]
      simp [same]

/-- Only which keys are left out matters, not in which order they stand. -/
theorem firstByKey_congr {seen seen' : List κ} (alike : ∀ k, k ∈ seen ↔ k ∈ seen')
    (es : List (κ × α)) : firstByKey seen es = firstByKey seen' es := by
  fun_induction firstByKey seen es generalizing seen' with
  | case1 => rfl
  | case2 seen k a rest old ih =>
    rw [firstByKey, if_pos ((alike k).mp old)]
    exact ih alike
  | case3 seen k a rest new ih =>
    have more : ∀ l, l ∈ k :: seen ↔ l ∈ k :: seen' := by
      intro l
      rw [List.mem_cons, List.mem_cons, alike l]
    rw [firstByKey, if_neg fun old => new ((alike k).mpr old), ih more]

theorem firstByKey_append (seen : List κ) (xs ys : List (κ × α)) :
    firstByKey seen (xs ++ ys) =
      firstByKey seen xs ++ firstByKey (xs.map (·.1) ++ seen) ys := by
  fun_induction firstByKey seen xs with
  | case1 => rfl
  | case2 seen k a rest old ih =>
    have known : ∀ l, l ∈ rest.map (·.1) ++ seen ↔ l ∈ k :: rest.map (·.1) ++ seen := by
      intro l
      simp only [List.cons_append, List.mem_cons, List.mem_append]
      constructor
      · exact .inr
      · rintro (rfl | h)
        · exact .inr old
        · exact h
    rw [List.cons_append, firstByKey, if_pos old, ih, firstByKey_congr known]
    rfl
  | case3 seen k a rest new ih =>
    have moved : ∀ l, l ∈ rest.map (·.1) ++ k :: seen ↔ l ∈ k :: rest.map (·.1) ++ seen := by
      intro l
      simp only [List.cons_append, List.mem_cons, List.mem_append]
      exact or_left_comm
    rw [List.cons_append, firstByKey, if_neg new, ih, List.cons_append, firstByKey_congr moved]
    rfl

/-- Dropping repeats once more leaves out the keys that are left out now. -/
theorem firstByKey_firstByKey {seen seen' : List κ} (within : seen' ⊆ seen) (es : List (κ × α)) :
    firstByKey seen (firstByKey seen' es) = firstByKey seen es := by
  fun_induction firstByKey seen' es generalizing seen with
  | case1 => rfl
  | case2 seen' k a rest old ih =>
    rw [ih within, firstByKey, if_pos (within old)]
  | case3 seen' k a rest new ih =>
    -- a key that is left out now may have stayed at first, and is not among those left out then
    by_cases old : k ∈ seen
    · have known : k :: seen' ⊆ seen := List.cons_subset.mpr ⟨old, within⟩
      rw [firstByKey, if_pos old, firstByKey, if_pos old, ih known]
    · have more : k :: seen' ⊆ k :: seen := List.cons_subset_cons k within
      rw [firstByKey, if_neg old, firstByKey, if_neg old, ih more]

theorem mem_keys_firstByKey {es : List (κ × α)} {k : κ} :
    k ∈ (firstByKey [] es).map (·.1) ↔ k ∈ es.map (·.1) := by
  constructor
  · exact fun h => ((firstByKey_sublist [] es).map _).subset h
  · intro h
    obtain ⟨a, found⟩ : ∃ a, es.lookup k = some a := by
      rw [← Option.ne_none_iff_exists', Ne, List.lookup_eq_none_iff]
      intro absent
      obtain ⟨e, he, rfl⟩ := List.mem_map.mp h
      simpa using absent e he
    exact List.mem_map.mpr ⟨(k, a), mem_firstByKey.mpr ⟨List.not_mem_nil, found⟩, rfl⟩

theorem nodup_keys_firstByKey (seen : List κ) (es : List (κ × α)) :
    ((firstByKey seen es).map (·.1)).Nodup := by
  fun_induction firstByKey seen es with
  | case1 => exact List.nodup_nil
  | case2 seen k a rest old ih => exact ih
  | case3 seen k a rest new ih =>
    rw [List.map_cons, List.nodup_cons]
    refine ⟨fun again => ?_, ih⟩
    obtain ⟨⟨l, b⟩, he, rfl⟩ := List.mem_map.mp again
    exact (mem_firstByKey.mp he).1 (List.mem_cons_self ..)

/-- By induction on the groups: the same keys are left out behind each of them. -/
theorem firstByKey_groups (seen : List κ) (groups : List (List (κ × α))) :
    firstByKey seen (groups.flatMap (firstByKey [])) = firstByKey seen groups.flatten := by
  induction groups generalizing seen with
  | nil => rfl
  | cons es groups ih =>
    have known : ∀ k, k ∈ (firstByKey [] es).map (·.1) ++ seen ↔ k ∈ es.map (·.1) ++ seen := by
      intro k
      rw [List.mem_append, List.mem_append, mem_keys_firstByKey]
    rw [List.flatMap_cons, List.flatten_cons, firstByKey_append, firstByKey_append,
      firstByKey_firstByKey (List.nil_subset seen), firstByKey_congr known, ih]

end FirstByKey

/-! ## First seen -/

/-- Two issues with one key. -/
def Issue.same (i j : Issue) : Bool :=
  match i.key, j.key with
  | .ok k, .ok l => k = l
  | _, _ => false

/-- An issue with this key is among the issues. -/
def Issue.among (i : Issue) (is : List Issue) : Bool :=
  is.any i.same

/-- The issues that no other with their key stands before, in their order. -/
def firstSeen (is : List Issue) : List Issue :=
  (is.zipIdx.filter fun p => !p.1.among (is.take p.2)).map (·.1)

theorem same_iff {i j : Issue} {k : IssueKey} (hi : i.key = .ok k) :
    i.same j = true ↔ j.key = .ok k := by
  unfold Issue.same
  rw [hi]
  cases j.key <;> simp [eq_comm]

/-- An issue in the list has this key. -/
def Occurs (k : IssueKey) (is : List Issue) : Prop :=
  ∃ i ∈ is, i.key = .ok k

theorem among_iff {i : Issue} {k : IssueKey} {is : List Issue} (hi : i.key = .ok k) :
    i.among is = true ↔ Occurs k is := by
  simp [Issue.among, Occurs, same_iff hi]

theorem occurs_iff {es : Keyed} (own : es.Own) {k : IssueKey} :
    Occurs k (es.map (·.2)) ↔ k ∈ es.map (·.1) := by
  unfold Occurs
  simp only [List.mem_map]
  constructor
  · rintro ⟨-, ⟨e, he, rfl⟩, key⟩
    exact ⟨e, he, Except.ok.inj ((own e he).symm.trans key)⟩
  · rintro ⟨e, he, rfl⟩
    exact ⟨e.2, ⟨e, he, rfl⟩, own e he⟩

theorem firstSeen_concat (is : List Issue) (i : Issue) :
    firstSeen (is ++ [i]) = firstSeen is ++ if i.among is then [] else [i] := by
  have front : ∀ p ∈ is.zipIdx,
      (!p.1.among ((is ++ [i]).take p.2)) = !p.1.among (is.take p.2) := by
    intro p hp
    have place := (List.mem_zipIdx hp).2.1
    rw [List.take_append_of_le_length (by omega)]
  have last : (is ++ [i]).take is.length = is := by simp
  unfold firstSeen
  rw [List.zipIdx_append, List.filter_append, List.map_append, List.filter_congr front]
  congr 1
  simp only [List.zipIdx_singleton, Nat.zero_add, List.filter_cons, List.filter_nil, last]
  cases i.among is <;> rfl

/-- By induction from the end, as whether an issue stays depends on those before it. -/
theorem firstByKey_issues {es : Keyed} (own : es.Own) :
    (firstByKey [] es).map (·.2) = firstSeen (es.map (·.2)) := by
  induction es using List.reverseRecOn with
  | nil => rfl
  | append_singleton es e ih =>
    have before : Keyed.Own es := fun f hf => own f (List.mem_append_left _ hf)
    have among := (among_iff (own e (by simp))).trans (occurs_iff before)
    rw [List.map_append, List.map_singleton, firstSeen_concat, ← ih before, firstByKey_append,
      List.map_append, List.append_nil]
    congr 1
    by_cases old : e.1 ∈ es.map (·.1)
    · rw [if_pos (among.mpr old), firstByKey, if_pos old]
      rfl
    · rw [if_neg (mt among.mp old), firstByKey, if_neg old]
      rfl

end LintHub
