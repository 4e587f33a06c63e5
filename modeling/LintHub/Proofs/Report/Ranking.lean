import LintHub.Proofs.Report.Totals
import Mathlib.Data.List.Induction
import Mathlib.Data.List.Permutation

/-! # The ranking of files

Files are ranked by how many issues they have, and those with equally many by which came first. There
is one such ranking, and however many of the worst files are asked for, they stand in front of it.
-/

namespace LintHub

section Ranking

variable {κ ι : Type} [DecidableEq ι] {view : κ → ι} {R : κ → κ → Prop} {ks fs gs : List κ}
  {k l : κ} {i : ι}

/-- How often something comes among keys. -/
def occurrences (view : κ → ι) (ks : List κ) (i : ι) : Nat :=
  ks.countP fun k => view k = i

/-- The place at which something first comes among keys. -/
def firstPlace (view : κ → ι) (ks : List κ) (i : ι) : Nat :=
  ks.findIdx fun k => view k = i

/-- A key comes before another. -/
def Earlier (view : κ → ι) (ks : List κ) (k l : κ) : Prop :=
  firstPlace view ks (view k) < firstPlace view ks (view l)

/-- A key comes more often than another, or as often and before it. -/
def Outranks (view : κ → ι) (ks : List κ) (k l : κ) : Prop :=
  occurrences view ks (view l) < occurrences view ks (view k) ∨
    occurrences view ks (view l) = occurrences view ks (view k) ∧ Earlier view ks k l

/-- Keys without repeats, each in the form in which it first came, arranged by a relation. -/
structure Arranged (R : κ → κ → Prop) (view : κ → ι) (ks fs : List κ) : Prop where
  members : ∀ k, k ∈ fs ↔ ks.find? (fun l => view l = view k) = some k
  ordered : fs.Pairwise R

theorem Outranks.asymm (h : Outranks view ks k l) : ¬ Outranks view ks l k := by
  unfold Outranks Earlier at *
  omega

theorem Arranged.nodup (asymm : ∀ k l, R k l → ¬ R l k) (h : Arranged R view ks fs) : fs.Nodup := by
  apply h.ordered.imp
  rintro k _ before rfl
  exact asymm k k before before

/-- Keys are arranged in one way. -/
theorem Arranged.unique (asymm : ∀ k l, R k l → ¬ R l k) (h : Arranged R view ks fs)
    (h' : Arranged R view ks gs) : fs = gs := by
  have same : fs.Perm gs := (List.perm_ext_iff_of_nodup (h.nodup asymm) (h'.nodup asymm)).mpr
    fun k => by rw [h.members, h'.members]
  exact same.eq_of_pairwise (fun k l _ _ before after => (asymm k l before after).elim) h.ordered
    h'.ordered

theorem Arranged.came (h : Arranged R view ks fs) (mem : k ∈ fs) : k ∈ ks :=
  List.mem_of_find?_eq_some ((h.members k).mp mem)

theorem Arranged.exists (h : Arranged R view ks fs) (mem : l ∈ ks) : ∃ k ∈ fs, view k = view l := by
  cases found : ks.find? (fun k => view k = view l) with
  | none => simpa using List.find?_eq_none.mp found l mem
  | some k =>
    have alike : view k = view l := by simpa using List.find?_some found
    refine ⟨k, (h.members k).mpr ?_, alike⟩
    rwa [alike]

/-- Two of the keys that say the same are one. -/
theorem Arranged.apart (h : Arranged R view ks fs) (hk : k ∈ fs) (hl : l ∈ fs)
    (alike : view k = view l) : k = l := by
  have first := (h.members k).mp hk
  rw [alike, (h.members l).mp hl] at first
  exact (Option.some.inj first).symm

/-! ## Counting keeps the order in which keys came -/

theorem firstPlace_lt (old : ∃ l ∈ ks, view l = i) : firstPlace view ks i < ks.length := by
  simpa [firstPlace, List.findIdx_lt_length] using old

theorem firstPlace_concat_old (k : κ) (old : ∃ l ∈ ks, view l = i) :
    firstPlace view (ks ++ [k]) i = firstPlace view ks i := by
  have before := firstPlace_lt old
  unfold firstPlace at *
  rw [List.findIdx_append, if_pos before]

theorem firstPlace_concat_new (new : ∀ l ∈ ks, view l ≠ view k) :
    firstPlace view (ks ++ [k]) (view k) = ks.length := by
  have nowhere : ks.findIdx (fun l => view l = view k) = ks.length := by
    simpa [List.findIdx_eq_length] using new
  simp [firstPlace, List.findIdx_append, nowhere]

/-- The places of keys do not change when another one comes. -/
theorem Arranged.later (h : Arranged (Earlier view ks) view ks fs) (k : κ) :
    fs.Pairwise (Earlier view (ks ++ [k])) := by
  apply h.ordered.imp_of_mem
  intro l m hl hm before
  unfold Earlier at *
  rwa [firstPlace_concat_old k ⟨l, h.came hl, rfl⟩, firstPlace_concat_old k ⟨m, h.came hm, rfl⟩]

theorem Arranged.again (h : Arranged (Earlier view ks) view ks fs)
    (old : ∃ l ∈ ks, view l = view k) :
    Arranged (Earlier view (ks ++ [k])) view (ks ++ [k]) fs where
  members l := by
    rw [h.members, List.find?_append]
    cases found : ks.find? (fun m => view m = view l) with
    | some m => simp
    | none =>
      have absent : view k ≠ view l := by
        obtain ⟨m, mem, alike⟩ := old
        simpa [alike] using List.find?_eq_none.mp found m mem
      simp [absent]
  ordered := h.later k

theorem Arranged.fresh (h : Arranged (Earlier view ks) view ks fs)
    (new : ∀ l ∈ ks, view l ≠ view k) :
    Arranged (Earlier view (ks ++ [k])) view (ks ++ [k]) (fs ++ [k]) where
  members l := by
    rw [List.mem_append, List.mem_singleton, h.members, List.find?_append]
    cases found : ks.find? (fun m => view m = view l) with
    | some m =>
      have other : l ≠ k := by
        rintro rfl
        have alike : view m = view l := by simpa using List.find?_some found
        exact new m (List.mem_of_find?_eq_some found) alike
      simp [other]
    | none =>
      have alike : l = k → view k = view l := fun same => congrArg view same.symm
      simpa [eq_comm] using alike
  ordered := by
    rw [List.pairwise_append]
    refine ⟨h.later k, List.pairwise_singleton .., fun l hl m hm => ?_⟩
    unfold Earlier
    rw [List.mem_singleton.mp hm, firstPlace_concat_new new,
      firstPlace_concat_old k ⟨l, h.came hl, rfl⟩]
    exact firstPlace_lt ⟨l, h.came hl, rfl⟩

namespace Tally

variable {t : Tally κ}

theorem keys_add_old (old : ∃ l ∈ t.map (·.1), view l = view k) (n : Int) :
    (add view t k n).map (·.1) = t.map (·.1) := by
  induction t with
  | nil => simp at old
  | cons p t ih =>
    rw [add]
    split
    · rfl
    · next other =>
      have behind : ∃ l ∈ t.map (·.1), view l = view k := by simpa [other] using old
      rw [List.map_cons, ih behind]
      rfl

theorem keys_add_new (new : ∀ l ∈ t.map (·.1), view l ≠ view k) (n : Int) :
    (add view t k n).map (·.1) = t.map (·.1) ++ [k] := by
  induction t with
  | nil => rfl
  | cons p t ih =>
    rw [List.map_cons, List.forall_mem_cons] at new
    rw [add, if_neg new.1, List.map_cons, ih new.2]
    rfl

/-- By induction from the end, as a key is counted after those before it. -/
theorem keys_ofList (ks : List κ) :
    Arranged (Earlier view ks) view ks ((ofList view ks).map (·.1)) := by
  induction ks using List.reverseRecOn with
  | nil => exact ⟨by simp [ofList], List.Pairwise.nil⟩
  | append_singleton ks k ih =>
    have counted : ofList view (ks ++ [k]) = add view (ofList view ks) k 1 := by simp [ofList]
    rw [counted]
    by_cases old : ∃ l ∈ ks, view l = view k
    · obtain ⟨l, mem, alike⟩ := old
      obtain ⟨m, there, first⟩ := ih.exists mem
      rw [keys_add_old ⟨m, there, first.trans alike⟩]
      exact ih.again ⟨l, mem, alike⟩
    · have new : ∀ l ∈ ks, view l ≠ view k := by simpa using old
      rw [keys_add_new fun l mem => new l (ih.came mem)]
      exact ih.fresh new

theorem count_of_mem (apart : (t.map (·.1)).Pairwise fun k l => view k ≠ view l) {p : κ × Int}
    (mem : p ∈ t) : count view t (view p.1) = p.2 := by
  induction t with
  | nil => simp at mem
  | cons q t ih =>
    rw [List.map_cons, List.pairwise_cons] at apart
    rw [count_cons]
    rcases List.mem_cons.mp mem with rfl | mem
    · rw [if_pos rfl]
    · rw [if_neg (apart.1 p.1 (List.mem_map_of_mem mem))]
      exact ih apart.2 mem

/-- What is counted under a key is how often it came. -/
theorem counted_ofList {p : κ × Int} (mem : p ∈ ofList view ks) :
    p.2 = occurrences view ks (view p.1) := by
  have keys : Arranged (Earlier view ks) view ks ((ofList view ks).map (·.1)) := keys_ofList ks
  have apart : ((ofList view ks).map (·.1)).Pairwise fun k l => view k ≠ view l := by
    apply keys.ordered.imp
    intro k l before alike
    unfold Earlier at before
    rw [alike] at before
    omega
  rw [← count_of_mem apart mem, count_ofList]
  rfl

/-! ## Sorting -/

/-- Counts do not fall below the next one. -/
def falling (p q : κ × Int) : Bool :=
  decide (q.2 ≤ p.2)

theorem falling_trans (p q r : κ × Int) (h : falling p q = true) (h' : falling q r = true) :
    falling p r = true := by
  simp only [falling, decide_eq_true_eq] at *
  omega

theorem falling_total (p q : κ × Int) : (falling p q || falling q p) = true := by
  simp only [falling, Bool.or_eq_true, decide_eq_true_eq]
  omega

/-- Sorting leaves the entries with one count in their order. -/
theorem sorted_filter (t : Tally κ) (n : Int) :
    (t.mergeSort falling).filter (fun p => p.2 = n) = t.filter fun p => p.2 = n := by
  have level : (t.filter fun p => p.2 = n).Pairwise fun p q => falling p q = true := by
    rw [List.pairwise_filter]
    apply List.pairwise_of_forall
    intro p q hp hq
    simp only [decide_eq_true_eq] at hp hq
    simp [falling, hp, hq]
  have part : (t.filter fun p => p.2 = n).Sublist (t.mergeSort falling) :=
    List.sublist_mergeSort falling_trans falling_total level List.filter_sublist
  have within := part.filter fun p => decide (p.2 = n)
  rw [List.filter_filter] at within
  simp only [Bool.and_self] at within
  exact (within.eq_of_length ((List.mergeSort_perm t falling).filter _).length_eq.symm).symm

/-- Two entries in sorted order have falling counts, or one count and the order that they had. -/
theorem sorted_pairwise {S : κ × Int → κ × Int → Prop} (ordered : t.Pairwise S) :
    (t.mergeSort falling).Pairwise fun p q => q.2 < p.2 ∨ q.2 = p.2 ∧ S p q := by
  rw [List.pairwise_iff_forall_sublist]
  intro p q sub
  have le : q.2 ≤ p.2 := by
    simpa [falling] using List.pairwise_iff_forall_sublist.mp
      (List.pairwise_mergeSort falling_trans falling_total t) sub
  rcases Int.lt_or_eq_of_le le with less | level
  · exact .inl less
  · have there : (t.filter fun r => r.2 = p.2).Pairwise S := ordered.sublist List.filter_sublist
    rw [← sorted_filter, List.pairwise_filter] at there
    have kept := List.pairwise_iff_forall_sublist.mp there sub
    exact .inr ⟨level, kept (by simp) (by simpa using level)⟩

theorem ranking_ofList (ks : List κ) :
    Arranged (Outranks view ks) view ks (ofList view ks).ranking where
  members k := by
    have perm := (List.mergeSort_perm (ofList view ks) falling).map (·.1)
    rw [← (keys_ofList ks).members, ← perm.mem_iff]
    rfl
  ordered := by
    have arranged : Arranged (Earlier view ks) view ks ((ofList view ks).map (·.1)) := keys_ofList ks
    have keys := List.pairwise_map.mp arranged.ordered
    show ((ofList view ks).mergeSort falling |>.map (·.1)).Pairwise _
    rw [List.pairwise_map]
    apply (sorted_pairwise keys).imp_of_mem
    intro p q hp hq above
    rw [counted_ofList (List.mem_mergeSort.mp hp), counted_ofList (List.mem_mergeSort.mp hq)] at above
    rcases above with less | ⟨level, before⟩
    · exact .inl (by omega)
    · exact .inr ⟨by omega, before⟩

end Tally

end Ranking

/-! ## The worst files -/

/-- The files of the issues, one for each of them. -/
def issueFiles (as : List Analysis) : List Scalar :=
  (as.flatMap (·.issues)).filterMap fun i => Scalar.ofJson? i.filePath

/-- How many issues a file has, repeats counted. -/
def issuesIn (as : List Analysis) (file : Scalar) : Nat :=
  occurrences Scalar.identity (issueFiles as) file.identity

theorem files_of_toScalar {is : List Issue} {files : List Scalar}
    (h : is.mapM (fun i => i.filePath.toScalar) = .ok files) :
    is.filterMap (fun i => Scalar.ofJson? i.filePath) = files := by
  induction is generalizing files with
  | nil =>
    cases h
    rfl
  | cons i is ih =>
    rw [List.mapM_cons, bind_ok_iff] at h
    obtain ⟨file, named, h⟩ := h
    obtain ⟨rest, behind, h⟩ := bind_ok_iff.mp h
    cases h
    rw [List.filterMap_cons, ofJson?_of_toScalar named, ih behind]

theorem fileRanking_eq {as : List Analysis} {ranking : List Scalar}
    (h : fileRanking as = .ok ranking) :
    ranking = (Tally.ofList Scalar.identity (issueFiles as)).ranking := by
  obtain ⟨files, named, h⟩ := bind_ok_iff.mp h
  cases h
  rw [issueFiles, files_of_toScalar named]

/-- However many are asked for, what is taken stands in front. -/
theorem takeUpTo_initial {α : Type} (n : Int) (xs : List α) : takeUpTo (some n) xs <+: xs := by
  unfold takeUpTo
  dsimp only
  split <;> exact List.take_prefix _ _

theorem length_takeUpTo {α : Type} (n : Int) (xs : List α) :
    (takeUpTo (some n) xs).length =
      if 0 ≤ n then min n.toNat xs.length else xs.length - n.natAbs := by
  unfold takeUpTo
  dsimp only
  split <;> rw [List.length_take]
  omega

/-- Of two parts of an arrangement what stands in front is above the rest. -/
theorem above_of_initial {α : Type} {R : α → α → Prop} {front xs : List α} (ordered : xs.Pairwise R)
    (le : front <+: xs) {a b : α} (ha : a ∈ front) (hb : b ∈ xs) (rest : b ∉ front) : R a b := by
  obtain ⟨behind, rfl⟩ := le
  exact (List.pairwise_append.mp ordered).2.2 a ha b ((List.mem_append.mp hb).resolve_left rest)

/-- What is listed of a ranking when `n` files are asked for. -/
structure Lists (as : List Analysis) (ranking : List Scalar) (n : Int) (listed : List Scalar) :
    Prop where
  answered : worstFiles as (.int n) = .ok (listed.map Scalar.toJson)
  /-- Statistics list the same files. -/
  told : ∀ s, statistics as (.int n) = .ok s → s.worstFiles = listed.map Scalar.toJson
  front : listed <+: ranking
  /-- Fewer than none leaves as many off the end. -/
  length : listed.length = if 0 ≤ n then min n.toNat ranking.length else ranking.length - n.natAbs
  worst : ∀ k ∈ listed, ∀ l ∈ ranking, l ∉ listed → issuesIn as l ≤ issuesIn as k

/-- What a ranking of the files tells. -/
structure RankingLaw (as : List Analysis) (ranking : List Scalar) : Prop where
  arranged : Arranged (Outranks Scalar.identity (issueFiles as)) Scalar.identity (issueFiles as) ranking
  /-- Every file with an issue stands in it, once. -/
  every : ∀ i, i ∈ ranking.map Scalar.identity ↔ i ∈ (issueFiles as).map Scalar.identity
  once : (ranking.map Scalar.identity).Nodup
  lists : ∀ n, ∃ listed, Lists as ranking n listed

theorem Arranged.every {κ ι : Type} [DecidableEq ι] {view : κ → ι} {R : κ → κ → Prop}
    {ks fs : List κ} (h : Arranged R view ks fs) (i : ι) : i ∈ fs.map view ↔ i ∈ ks.map view := by
  simp only [List.mem_map]
  constructor
  · rintro ⟨k, mem, rfl⟩
    exact ⟨k, h.came mem, rfl⟩
  · rintro ⟨k, mem, rfl⟩
    exact h.exists mem

theorem arranged_of_ranking {as : List Analysis} {ranking : List Scalar}
    (ranked : fileRanking as = .ok ranking) :
    Arranged (Outranks Scalar.identity (issueFiles as)) Scalar.identity (issueFiles as) ranking := by
  rw [fileRanking_eq ranked]
  exact Tally.ranking_ofList (issueFiles as)

theorem lists_of_ranking {as : List Analysis} {ranking : List Scalar}
    (ranked : fileRanking as = .ok ranking) (n : Int) :
    Lists as ranking n (takeUpTo (some n) ranking) := by
  have answered : worstFiles as (.int n) = .ok ((takeUpTo (some n) ranking).map Scalar.toJson) :=
    bind_ok_iff.mpr ⟨ranking, ranked, rfl⟩
  have arranged := arranged_of_ranking ranked
  refine ⟨answered, fun s counted => ?_, takeUpTo_initial n ranking, length_takeUpTo n ranking,
    fun k hk l hl rest => ?_⟩
  · obtain ⟨sums, -, counted⟩ := bind_ok_iff.mp counted
    obtain ⟨worst, listed, counted⟩ := bind_ok_iff.mp counted
    cases counted
    exact Except.ok.inj (listed.symm.trans answered)
  · have above := above_of_initial arranged.ordered (takeUpTo_initial n ranking) hk hl rest
    unfold Outranks at above
    unfold issuesIn
    omega

/-- Files that can be keys, as all texts can, have one ranking, from which the worst ones are
listed. -/
theorem files_have_one_ranking {as : List Analysis}
    (keys : ∀ i ∈ as.flatMap (·.issues), i.filePath.IsKey) :
    ∃ ranking, RankingLaw as ranking ∧ ∀ other,
      Arranged (Outranks Scalar.identity (issueFiles as)) Scalar.identity (issueFiles as) other →
        other = ranking := by
  obtain ⟨ranking, ranked⟩ := fileRanking_ok_iff.mpr keys
  have arranged := arranged_of_ranking ranked
  have asymm (k l : Scalar) (h : Outranks Scalar.identity (issueFiles as) k l) := h.asymm
  have once : (ranking.map Scalar.identity).Nodup :=
    (List.nodup_map_iff_inj_on (arranged.nodup asymm)).mpr
      fun k hk l hl alike => arranged.apart hk hl alike
  exact ⟨ranking, ⟨arranged, arranged.every, once, fun n => ⟨_, lists_of_ranking ranked n⟩⟩,
    fun other h => h.unique asymm arranged⟩

/-- An issue in a file. -/
def issueIn (file : String) : Issue :=
  { issueAt 3 .error with filePath := .str file }

/-- Two files with two issues each, of which the one came first that comes last in the second run. -/
def spread : List Analysis :=
  [ runOf [issueIn "c.py", issueIn "b.py", issueIn "a.py"] true,
    runOf [issueIn "a.py", issueIn "b.py"] false ]

theorem files_have_one_ranking_spread : ∃ ranking, RankingLaw spread ranking ∧
    (∀ other, Arranged (Outranks Scalar.identity (issueFiles spread)) Scalar.identity
      (issueFiles spread) other → other = ranking) ∧
    ranking = [.str "b.py", .str "a.py", .str "c.py"] := by
  have keys : ∀ i ∈ spread.flatMap (·.issues), i.filePath.IsKey := fileRanking_ok_iff.mp ⟨_, rfl⟩
  have computed : (Tally.ofList Scalar.identity (issueFiles spread)).ranking =
      [.str "b.py", .str "a.py", .str "c.py"] := by cbv
  obtain ⟨ranking, law, only⟩ := files_have_one_ranking keys
  refine ⟨ranking, law, only, ?_⟩
  rw [← only _ (Tally.ranking_ofList _), computed]

end LintHub
