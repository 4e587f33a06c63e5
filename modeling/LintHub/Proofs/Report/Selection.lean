import LintHub.Proofs.Report.Comparing
import LintHub.Proofs.Lists

/-! # What is left of a list with repeats

Of the issues with one key the earliest stays, and nothing else. So of two lists one after the other
the first is left as it would be alone, and the second loses what the first has keys of as well.
-/

namespace LintHub

/-! ## Keys that are left out from the start -/

/-- Leaving out keys from the start is dropping them at the end. By the recursion on the entries: a key
that is left out never keeps another entry with it from staying. -/
theorem firstByKey_append_seen {κ α : Type} [DecidableEq κ] (out seen : List κ)
    (es : List (κ × α)) :
    firstByKey (out ++ seen) es = (firstByKey seen es).filter fun e => !out.contains e.1 := by
  fun_induction firstByKey seen es with
  | case1 => rfl
  | case2 seen k a rest old ih => rw [firstByKey, if_pos (List.mem_append_right _ old), ih]
  | case3 seen k a rest new ih =>
    have moved : ∀ l, l ∈ out ++ k :: seen ↔ l ∈ k :: (out ++ seen) := by
      intro l
      simp only [List.mem_append, List.mem_cons]
      exact or_left_comm
    by_cases dropped : k ∈ out
    · have known : ∀ l, l ∈ out ++ seen ↔ l ∈ out ++ k :: seen := by
        intro l
        rw [moved, List.mem_cons]
        exact ⟨.inr, fun h => h.elim (fun same => same ▸ List.mem_append_left _ dropped) id⟩
      rw [firstByKey, if_pos (List.mem_append_left _ dropped), firstByKey_congr known, ih,
        List.filter_cons_of_neg (by simpa using dropped)]
    · rw [firstByKey, if_neg (by simp [dropped, new]), ← firstByKey_congr moved, ih,
        List.filter_cons_of_pos (by simpa using dropped)]

/-- The keys of entries and those of the entries that are left are the same to what comes after. -/
theorem firstByKey_after (es fs : Keyed) :
    (firstByKey (es.map (·.1)) fs).map (·.2) = without (firstByKey [] fs) (firstByKey [] es) := by
  have alike : ∀ k, (es.map (·.1)).contains k = ((firstByKey [] es).map (·.1)).contains k := by
    intro k
    rw [Bool.eq_iff_iff, List.contains_iff_mem, List.contains_iff_mem, mem_keys_firstByKey]
  have leaving := firstByKey_append_seen (es.map (·.1)) [] fs
  rw [List.append_nil] at leaving
  rw [leaving, without]
  simp only [alike]

/-! ## The earliest with each key -/

/-- By induction from the end, as in which issues stay. -/
theorem mem_firstSeen {i : Issue} {is : List Issue} :
    i ∈ firstSeen is ↔ ∃ before after, is = before ++ i :: after ∧ i.among before = false := by
  induction is using List.reverseRecOn with
  | nil => simp [firstSeen]
  | append_singleton is j ih =>
    rw [firstSeen_concat, List.mem_append, ih]
    constructor
    · rintro (⟨before, after, rfl, first⟩ | last)
      · exact ⟨before, after ++ [j], by simp, first⟩
      · split at last
        · cases last
        · next first =>
          cases List.mem_singleton.mp last
          exact ⟨is, [], rfl, by simpa using first⟩
    · rintro ⟨before, after, split, first⟩
      rcases split_concat split with ⟨rfl, rfl, rfl⟩ | ⟨after, rfl, rfl⟩
      · exact .inr (by simp [first])
      · exact .inl ⟨before, after, rfl, first⟩

/-- From each key that occurs the issue that was seen first, in their order. -/
structure Selects (is ds : List Issue) : Prop where
  exactly : ds = firstSeen is
  sublist : ds.Sublist is
  apart : ds.Pairwise fun i j => i.same j = false
  keys : ∀ k, Occurs k ds ↔ Occurs k is
  earliest : ∀ i ∈ ds, ∃ before after, is = before ++ i :: after ∧ i.among before = false

theorem firstSeen_sublist (is : List Issue) : (firstSeen is).Sublist is := by
  have kept := (List.filter_sublist (l := is.zipIdx)
    (p := fun p => !p.1.among (is.take p.2))).map (·.1)
  rwa [List.zipIdx_map_fst] at kept

/-- Issues under different keys are different. -/
theorem pairwise_apart {es : Keyed} (own : es.Own) (nodup : (es.map (·.1)).Nodup) :
    (es.map (·.2)).Pairwise fun i j => i.same j = false := by
  rw [List.Nodup, List.pairwise_map] at nodup
  rw [List.pairwise_map]
  refine nodup.imp_of_mem fun {e f} he hf differ => Bool.eq_false_iff.mpr fun same => differ ?_
  exact Except.ok.inj (((same_iff (own e he)).mp same).symm.trans (own f hf))

theorem selects_of_seen {is : List Issue} {es : Keyed} (seen : Seen is es) :
    Selects is (es.map (·.2)) where
  exactly := seen.issues
  sublist := seen.issues ▸ firstSeen_sublist is
  apart := pairwise_apart seen.own seen.nodup
  keys k := by rw [occurs_iff seen.own, seen.occurs]
  earliest i hi := mem_firstSeen.mp (seen.issues ▸ hi)

/-! ## The law -/

theorem distinctIssues_eq_ok_iff {is ds : List Issue} :
    distinctIssues is = .ok ds ↔ ∃ es, withKeys is = .ok es ∧ (firstByKey [] es).map (·.2) = ds := by
  unfold distinctIssues distinctKeyed
  simp only [map_ok_iff]
  constructor
  · rintro ⟨_, ⟨es, keyed, rfl⟩, left⟩
    exact ⟨es, keyed, left⟩
  · rintro ⟨es, keyed, left⟩
    exact ⟨_, ⟨es, keyed, rfl⟩, left⟩

theorem distinctIssues_ok_iff {is : List Issue} :
    (∃ ds, distinctIssues is = .ok ds) ↔ ∀ i ∈ is, i.Keyed := by
  simp only [distinctIssues_eq_ok_iff, ← withKeys_ok_iff]
  constructor
  · rintro ⟨_, es, keyed, -⟩
    exact ⟨es, keyed⟩
  · rintro ⟨es, keyed⟩
    exact ⟨_, es, keyed, rfl⟩

theorem distinctIssues_selects {is ds : List Issue} (left : distinctIssues is = .ok ds) :
    Selects is ds := by
  obtain ⟨es, keyed, rfl⟩ := map_ok_iff.mp left
  exact selects_of_seen (seen_of_distinctKeyed keyed)

theorem distinctIssues_append {xs ys ds es : List Issue} (first : distinctIssues xs = .ok ds)
    (second : distinctIssues ys = .ok es) :
    distinctIssues (xs ++ ys) = .ok (ds ++ es.filter fun i => !i.among xs) := by
  obtain ⟨as, mine, rfl⟩ := distinctIssues_eq_ok_iff.mp first
  obtain ⟨bs, yours, rfl⟩ := distinctIssues_eq_ok_iff.mp second
  have seen : Seen xs (firstByKey [] as) :=
    seen_of_distinctKeyed (map_ok_iff.mpr ⟨as, mine, rfl⟩)
  have seen' : Seen ys (firstByKey [] bs) :=
    seen_of_distinctKeyed (map_ok_iff.mpr ⟨bs, yours, rfl⟩)
  obtain ⟨rfl, own⟩ := withKeys_eq_ok_iff.mp mine
  obtain ⟨rfl, own'⟩ := withKeys_eq_ok_iff.mp yours
  refine distinctIssues_eq_ok_iff.mpr ⟨as ++ bs, withKeys_eq_ok_iff.mpr ⟨by simp, ?_⟩, ?_⟩
  · exact List.forall_mem_append.mpr ⟨own, own'⟩
  · rw [firstByKey_append, List.map_append, List.append_nil, firstByKey_after,
      without_eq seen'.own seen]

/-- Repeats can be dropped where every issue has a key, as all issues in files and of rules that are
texts have. What is left is the earliest issue with each key, and of two lists one after the other the
second adds those of its own whose keys the first does not have. -/
theorem deduplicate_selects_first :
    (∀ is, (∃ ds, distinctIssues is = .ok ds) ↔ ∀ i ∈ is, i.Keyed) ∧
    (∀ is ds, distinctIssues is = .ok ds → Selects is ds) ∧
    ∀ xs ys ds es, distinctIssues xs = .ok ds → distinctIssues ys = .ok es →
      distinctIssues (xs ++ ys) = .ok (ds ++ es.filter fun i => !i.among xs) :=
  ⟨fun _ => distinctIssues_ok_iff, fun _ _ => distinctIssues_selects,
    fun _ _ _ _ => distinctIssues_append⟩

/-- A key that comes three times, twice in the first list and once in the second. -/
theorem deduplicate_selects_first_thrice :
    Selects [issueAt 3 .error, issueAt 5 .info, issueAt 3 .info]
      [issueAt 3 .error, issueAt 5 .info] ∧
    distinctIssues ([issueAt 3 .error, issueAt 5 .info, issueAt 3 .info] ++
      [issueAt 7 .warning, issueAt 3 .critical]) =
        .ok [issueAt 3 .error, issueAt 5 .info, issueAt 7 .warning] := by
  have first : distinctIssues [issueAt 3 .error, issueAt 5 .info, issueAt 3 .info] =
      .ok [issueAt 3 .error, issueAt 5 .info] := rfl
  have second : distinctIssues [issueAt 7 .warning, issueAt 3 .critical] =
      .ok [issueAt 7 .warning, issueAt 3 .critical] := rfl
  obtain ⟨-, selects, appends⟩ := deduplicate_selects_first
  exact ⟨selects _ _ first, appends _ _ _ _ first second⟩

end LintHub
