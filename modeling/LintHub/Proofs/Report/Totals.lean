import LintHub.Proofs.Report.Comparing
import Mathlib.Algebra.BigOperators.Group.List.Basic
import Mathlib.Data.List.Perm.Subperm

/-! # What statistics count

Statistics count every issue, merging keeps the first ones. Their totals agree with each other and
with those of the merged analysis. What they count of two lists together is what they count of each,
added up, so the order of the analyses does not matter.
-/

namespace LintHub

open Time

/-! ## Sums that may be of nothing -/

/-- The sum of some numbers; of no numbers there is none. -/
def sumOf (ns : List Int) : Option Int :=
  if ns.isEmpty then none else some ns.sum

/-- Sums that are there are added up. -/
abbrev addUp : Option Int → Option Int → Option Int :=
  Option.merge (· + ·)

theorem sumOf_append (ms ns : List Int) : sumOf (ms ++ ns) = addUp (sumOf ms) (sumOf ns) := by
  cases ms <;> cases ns <;> simp [sumOf, add_assoc]

theorem sumOf_cons (n : Int) (ns : List Int) : sumOf (n :: ns) = addUp (some n) (sumOf ns) := by
  cases ns <;> simp [sumOf]

theorem addUp_assoc (a b c : Option Int) : addUp (addUp a b) c = addUp a (addUp b c) := by
  cases a <;> cases b <;> cases c <;> simp [add_assoc]

theorem sumOf_perm {ms ns : List Int} (same : ms.Perm ns) : sumOf ms = sumOf ns := by
  unfold sumOf
  rw [same.isEmpty_eq, same.sum_eq]

/-! ## Tallies -/

namespace Tally

variable {κ ι : Type} [DecidableEq ι] {view : κ → ι}

/-- The count that stands under a key, if one does. -/
def entry (view : κ → ι) (t : Tally κ) (i : ι) : Option Int :=
  (t.find? fun p => view p.1 = i).map (·.2)

/-- Adds several counts, one after the other. -/
def addAll (view : κ → ι) (t : Tally κ) (ps : List (κ × Int)) : Tally κ :=
  ps.foldl (fun t p => add view t p.1 p.2) t

/-- The counts of a key in a list. -/
def countsOf (view : κ → ι) (ps : List (κ × Int)) (i : ι) : List Int :=
  (ps.filter fun p => view p.1 = i).map (·.2)

theorem ofList_eq_addAll (ks : List κ) : ofList view ks = addAll view [] (ks.map (·, 1)) := by
  rw [ofList, addAll, List.foldl_map]

theorem entry_cons (p : κ × Int) (t : Tally κ) (i : ι) :
    entry view (p :: t) i = if view p.1 = i then some p.2 else entry view t i := by
  by_cases here : view p.1 = i <;> simp [entry, here]

theorem entry_add (t : Tally κ) (k : κ) (n : Int) (i : ι) :
    entry view (add view t k n) i =
      addUp (entry view t i) (if view k = i then some n else none) := by
  induction t with
  | nil => by_cases here : view k = i <;> simp [entry, add, here]
  | cons p t ih =>
    rw [add, entry_cons]
    by_cases same : view p.1 = view k
    · rw [if_pos same, entry_cons, same]
      by_cases here : view k = i <;> simp [here]
    · rw [if_neg same, entry_cons]
      by_cases first : view p.1 = i
      · have other : view k ≠ i := fun h => same (first.trans h.symm)
        simp [first, other]
      · simp [first, ih]

/-- By induction on the counts, whatever was counted before. -/
theorem entry_addAll (t : Tally κ) (ps : List (κ × Int)) (i : ι) :
    entry view (addAll view t ps) i = addUp (entry view t i) (sumOf (countsOf view ps i)) := by
  induction ps generalizing t with
  | nil => simp [addAll, countsOf, sumOf]
  | cons p ps ih =>
    have step : addAll view t (p :: ps) = addAll view (add view t p.1 p.2) ps := rfl
    rw [step, ih, entry_add, addUp_assoc]
    by_cases here : view p.1 = i
    · rw [if_pos here, ← sumOf_cons]
      simp [countsOf, here]
    · simp [countsOf, here]

theorem entry_addAll_nil (ps : List (κ × Int)) (i : ι) :
    entry view (addAll view [] ps) i = sumOf (countsOf view ps i) := by
  rw [entry_addAll]
  simp [entry]

theorem entry_ofList (ks : List κ) (i : ι) :
    entry view (ofList view ks) i =
      if ks.countP (fun k => view k = i) = 0 then none else some (ks.countP fun k => view k = i) := by
  have ones : countsOf view (ks.map (·, 1)) i =
      List.replicate (ks.countP fun k => view k = i) 1 := by
    simp [countsOf, List.filter_map, Function.comp_def, List.countP_eq_length_filter,
      List.map_const']
  rw [ofList_eq_addAll, entry_addAll_nil, ones]
  cases ks.countP (fun k => view k = i) <;> simp [sumOf]

theorem total_add (t : Tally κ) (k : κ) (n : Int) : total (add view t k n) = total t + n := by
  induction t with
  | nil => simp [total, add]
  | cons p t ih =>
    rw [add]
    split
    · simp only [total, List.foldr_cons]
      omega
    · simp only [total, List.foldr_cons] at ih ⊢
      omega

theorem total_addAll (t : Tally κ) (ps : List (κ × Int)) :
    total (addAll view t ps) = total t + (ps.map (·.2)).sum := by
  induction ps generalizing t with
  | nil => simp [addAll]
  | cons p ps ih =>
    have step : addAll view t (p :: ps) = addAll view (add view t p.1 p.2) ps := rfl
    rw [step, ih, total_add, List.map_cons, List.sum_cons, add_assoc]

theorem total_ofList (ks : List κ) : total (ofList view ks) = ks.length := by
  rw [ofList_eq_addAll, total_addAll, List.map_map]
  simp [total, Function.comp_def]

theorem countsOf_append (ps qs : List (κ × Int)) (i : ι) :
    countsOf view (ps ++ qs) i = countsOf view ps i ++ countsOf view qs i := by
  rw [countsOf, List.filter_append, List.map_append]
  rfl

theorem countsOf_perm {ps qs : List (κ × Int)} (same : ps.Perm qs) (i : ι) :
    (countsOf view ps i).Perm (countsOf view qs i) :=
  (same.filter _).map _

end Tally

/-! ## What is counted -/

/-- The number of issues of each analysis, under its tool. -/
def toolCounts (as : List Analysis) : List (Scalar × Int) :=
  as.filterMap fun a => (Scalar.ofJson? a.toolName).map (·, (a.issues.length : Int))

theorem ofJson?_of_toScalar {v : Json} {s : Scalar} (h : v.toScalar = .ok s) :
    Scalar.ofJson? v = some s := by
  unfold Json.toScalar at h
  split at h
  · next found =>
    cases h
    exact found
  · cases h

/-- Running times and the issues of the tools are added up. -/
structure RunsAdded (as : List Analysis) (sums sums' : Span × Tally Scalar) : Prop where
  perTool : sums'.2 = Tally.addAll Scalar.identity sums.2 (toolCounts as)
  time : sumSpans sums.1 (as.map (·.executionTime)) = .ok sums'.1
  each : ((toolCounts as).map (·.2)).sum = (as.map fun a => (a.issues.length : Int)).sum

theorem runs_added {as : List Analysis} {sums sums' : Span × Tally Scalar}
    (h : as.foldlM addRun sums = .ok sums') : RunsAdded as sums sums' := by
  induction as generalizing sums with
  | nil =>
    cases h
    exact ⟨rfl, rfl, rfl⟩
  | cons a as ih =>
    rw [List.foldlM_cons, bind_ok_iff] at h
    obtain ⟨_, first, rest⟩ := h
    obtain ⟨time, tool, added, named, rfl⟩ := addRun_eq_ok_iff.mp first
    have behind := ih rest
    have counts : toolCounts (a :: as) = (tool, (a.issues.length : Int)) :: toolCounts as :=
      List.filterMap_cons_some (by rw [ofJson?_of_toScalar named]; rfl)
    refine ⟨?_, ?_, ?_⟩
    · rw [behind.perTool, counts]
      rfl
    · rw [List.map_cons, sumSpans_cons, added]
      exact behind.time
    · rw [counts, List.map_cons, List.map_cons, List.sum_cons, List.sum_cons, behind.each]

/-- Everything that is counted. -/
structure Counts where
  issues : Int
  files : Int
  micros : Int
  perTool : Identity → Option Int
  bySeverity : Severity → Option Int
  byCategory : Category → Option Int

/-- Counts are added up, those of each key for itself. -/
instance : Add Counts where
  add c d :=
    { issues := c.issues + d.issues
      files := c.files + d.files
      micros := c.micros + d.micros
      perTool := fun k => addUp (c.perTool k) (d.perTool k)
      bySeverity := fun k => addUp (c.bySeverity k) (d.bySeverity k)
      byCategory := fun k => addUp (c.byCategory k) (d.byCategory k) }

def Statistics.counts (s : Statistics) : Counts where
  issues := s.totalIssues
  files := s.totalFiles
  micros := s.totalTime.micros
  perTool := Tally.entry Scalar.identity s.perTool
  bySeverity := Tally.entry id s.bySeverity
  byCategory := Tally.entry id s.byCategory

/-- What there is to count in analyses. -/
def Counts.ofAnalyses (as : List Analysis) : Counts where
  issues := (as.map fun a => (a.issues.length : Int)).sum
  files := (as.map (·.filesAnalyzed)).sum
  micros := (as.map (·.executionTime.micros)).sum
  perTool k := sumOf (Tally.countsOf Scalar.identity (toolCounts as) k)
  bySeverity k := sumOf (Tally.countsOf id ((as.flatMap (·.issues)).map fun i => (i.severity, 1)) k)
  byCategory k := sumOf (Tally.countsOf id ((as.flatMap (·.issues)).map fun i => (i.category, 1)) k)

theorem Counts.ofAnalyses_append (as bs : List Analysis) :
    Counts.ofAnalyses (as ++ bs) = Counts.ofAnalyses as + Counts.ofAnalyses bs := by
  show _ = Counts.mk _ _ _ _ _ _
  simp only [Counts.ofAnalyses, toolCounts, List.map_append, List.sum_append, List.flatMap_append,
    List.filterMap_append, Tally.countsOf_append, sumOf_append]

theorem Counts.ofAnalyses_perm {as bs : List Analysis} (same : as.Perm bs) :
    Counts.ofAnalyses as = Counts.ofAnalyses bs := by
  have issues := same.flatMap_right (·.issues)
  unfold Counts.ofAnalyses
  congr 1
  · exact (same.map _).sum_eq
  · exact (same.map _).sum_eq
  · exact (same.map _).sum_eq
  · exact funext fun k => sumOf_perm (Tally.countsOf_perm (same.filterMap _) k)
  · exact funext fun k => sumOf_perm (Tally.countsOf_perm (issues.map _) k)
  · exact funext fun k => sumOf_perm (Tally.countsOf_perm (issues.map _) k)

theorem length_issues (as : List Analysis) :
    ((as.flatMap (·.issues)).length : Int) = (as.map fun a => (a.issues.length : Int)).sum := by
  induction as with
  | nil => rfl
  | cons a as ih =>
    rw [List.flatMap_cons, List.length_append, Nat.cast_add, ih, List.map_cons, List.sum_cons]

/-- Statistics that are there, from the sums over the runs. -/
theorem statistics_eq_ok {as : List Analysis} {n : Int} {s : Statistics}
    (h : statistics as (.int n) = .ok s) : RunsAdded as (Span.zero, []) (s.totalTime, s.perTool) ∧
      s.totalIssues = (as.flatMap (·.issues)).length ∧
      s.totalFiles = (as.map (·.filesAnalyzed)).sum ∧
      s.bySeverity = Tally.ofList id ((as.flatMap (·.issues)).map (·.severity)) ∧
      s.byCategory = Tally.ofList id ((as.flatMap (·.issues)).map (·.category)) := by
  obtain ⟨sums, runs, h⟩ := bind_ok_iff.mp h
  obtain ⟨worst, -, h⟩ := bind_ok_iff.mp h
  cases h
  refine ⟨runs_added runs, rfl, ?_, rfl, rfl⟩
  rw [List.sum_eq_foldr, List.foldr_map]

theorem counts_of_statistics {as : List Analysis} {n : Int} {s : Statistics}
    (h : statistics as (.int n) = .ok s) : s.counts = Counts.ofAnalyses as := by
  obtain ⟨runs, issues, files, severities, categories⟩ := statistics_eq_ok h
  unfold Statistics.counts Counts.ofAnalyses
  congr 1
  · rw [issues, length_issues]
  · exact sum_times runs.time
  · funext k
    rw [show s.perTool = _ from runs.perTool]
    exact Tally.entry_addAll_nil _ k
  · funext k
    rw [severities, Tally.ofList_eq_addAll, Tally.entry_addAll_nil, List.map_map]
    rfl
  · funext k
    rw [categories, Tally.ofList_eq_addAll, Tally.entry_addAll_nil, List.map_map]
    rfl

/-! ## Against the merged analysis -/

section FirstByKey

variable {κ α : Type} [DecidableEq κ]

/-- Nothing is dropped exactly if no key comes twice. -/
theorem length_firstByKey_eq_iff {es : List (κ × α)} :
    (firstByKey [] es).length = es.length ↔ (es.map (·.1)).Nodup := by
  constructor
  · intro whole
    have same := (firstByKey_sublist [] es).eq_of_length whole
    rw [← same]
    exact nodup_keys_firstByKey [] es
  · intro nodup
    have few := (firstByKey_sublist [] es).length_le
    have keys : es.map (·.1) ⊆ (firstByKey [] es).map (·.1) :=
      fun k hk => mem_keys_firstByKey.mpr hk
    have many := (List.subperm_of_subset nodup keys).length_le
    rw [List.length_map, List.length_map] at many
    omega

end FirstByKey

/-- Different keys are those of issues that are not the same. -/
theorem nodup_keys_iff {es : Keyed} (own : es.Own) :
    (es.map (·.1)).Nodup ↔ (es.map (·.2)).Pairwise fun i j => i.same j = false := by
  rw [List.Nodup, List.pairwise_map, List.pairwise_map]
  refine List.Pairwise.iff_of_mem fun {e f} he hf => ?_
  rw [← Bool.not_eq_true, same_iff (own e he), own f hf, ne_eq, Except.ok.injEq, eq_comm]

/-- Statistics of analyses and what these are merged to agree. -/
structure Agree (as : List Analysis) (s : Statistics) (m : Analysis) : Prop where
  issues : s.totalIssues = (as.map fun a => (a.issues.length : Int)).sum
  bySeverity : s.totalIssues = s.bySeverity.total
  byCategory : s.totalIssues = s.byCategory.total
  perTool : s.totalIssues = s.perTool.total
  files : s.totalFiles = m.filesAnalyzed
  time : s.totalTime = m.executionTime
  most : (m.issues.length : Int) ≤ s.totalIssues
  /-- Nothing is merged exactly if no two issues have one key. -/
  apart : (m.issues.length : Int) = s.totalIssues ↔
    (as.flatMap (·.issues)).Pairwise fun i j => i.same j = false

theorem agree_of_ok {stamp : Stamp} {as : List Analysis} {n : Int} {s : Statistics} {m : Analysis}
    (counted : statistics as (.int n) = .ok s) (made : aggregate stamp as = .ok m) :
    Agree as s m := by
  obtain ⟨runs, issues, files, severities, categories⟩ := statistics_eq_ok counted
  obtain ⟨time, es, added, keyed, rfl⟩ := aggregate_eq_ok_iff.mp made
  obtain ⟨same, own⟩ := withKeys_eq_ok_iff.mp keyed
  have length : (as.flatMap (·.issues)).length = es.length := by rw [← same, List.length_map]
  have kept : (merged stamp as time es).issues.length = (firstByKey [] es).length :=
    List.length_map _
  have few := (firstByKey_sublist [] es).length_le
  refine ⟨by rw [issues, length_issues], ?_, ?_, ?_, ?_, ?_, ?_, ?_⟩
  · rw [issues, severities, Tally.total_ofList, List.length_map]
  · rw [issues, categories, Tally.total_ofList, List.length_map]
  · rw [issues, length_issues, ← runs.each, show s.perTool = _ from runs.perTool,
      Tally.total_addAll]
    simp [Tally.total]
  · rw [files, merged_files]
  · exact Except.ok.inj (runs.time.symm.trans added)
  · rw [issues, length, kept]
    exact_mod_cast few
  · rw [issues, length, kept, Nat.cast_inj, length_firstByKey_eq_iff, nodup_keys_iff own, same]

/-- Statistics agree with each other and with merging, are added up where lists are put together, and
count the same in whatever order the analyses stand. The tools, files and rules have to be values that
can be keys, as all texts are. -/
theorem statistics_agree (stamp : Stamp) (n : Int) :
    (∀ as, Countable as → Mergeable as →
      ∃ s m, statistics as (.int n) = .ok s ∧ aggregate stamp as = .ok m ∧ Agree as s m) ∧
    (∀ as bs, Countable as → Countable bs → Countable (as ++ bs) →
      ∃ s s₁ s₂, statistics (as ++ bs) (.int n) = .ok s ∧ statistics as (.int n) = .ok s₁ ∧
        statistics bs (.int n) = .ok s₂ ∧ s.counts = s₁.counts + s₂.counts) ∧
    ∀ as bs, as.Perm bs → Countable as → Countable bs →
      ∃ s t, statistics as (.int n) = .ok s ∧ statistics bs (.int n) = .ok t ∧
        s.counts = t.counts := by
  refine ⟨fun as countable mergeable => ?_, fun as bs left right both => ?_,
    fun as bs same left right => ?_⟩
  · obtain ⟨s, counted⟩ := statistics_ok_iff.mpr countable
    obtain ⟨m, made⟩ := (aggregate_ok_iff stamp).mpr mergeable
    exact ⟨s, m, counted, made, agree_of_ok counted made⟩
  · obtain ⟨s₁, first⟩ := statistics_ok_iff.mpr left
    obtain ⟨s₂, second⟩ := statistics_ok_iff.mpr right
    obtain ⟨s, whole⟩ := statistics_ok_iff.mpr both
    refine ⟨s, s₁, s₂, whole, first, second, ?_⟩
    rw [counts_of_statistics whole, counts_of_statistics first, counts_of_statistics second,
      Counts.ofAnalyses_append]
  · obtain ⟨s, first⟩ := statistics_ok_iff.mpr left
    obtain ⟨t, second⟩ := statistics_ok_iff.mpr right
    refine ⟨s, t, first, second, ?_⟩
    rw [counts_of_statistics first, counts_of_statistics second, Counts.ofAnalyses_perm same]

/-- Five issues under three keys; the runs of one tool are counted together, in either order. -/
theorem statistics_agree_four :
    (∃ s m, statistics (earlier ++ later) (.int (-1)) = .ok s ∧
      aggregate dawn (earlier ++ later) = .ok m ∧ Agree (earlier ++ later) s m ∧
      s.totalIssues = 5 ∧ m.issues.length = 3 ∧ s.counts.perTool (.str "ruff") = some 5) ∧
    (∃ s s₁ s₂, statistics (earlier ++ later) (.int (-1)) = .ok s ∧
      statistics earlier (.int (-1)) = .ok s₁ ∧ statistics later (.int (-1)) = .ok s₂ ∧
      s.counts = s₁.counts + s₂.counts) ∧
    ∃ s t, statistics (earlier ++ later) (.int (-1)) = .ok s ∧
      statistics (later ++ earlier) (.int (-1)) = .ok t ∧ s.counts = t.counts := by
  obtain ⟨agreeing, joining, turning⟩ := statistics_agree dawn (-1)
  have countable (as : List Analysis) (s : Statistics) (h : statistics as (.int (-1)) = .ok s) :
      Countable as := statistics_ok_iff.mp ⟨s, h⟩
  have both : Countable (earlier ++ later) := countable _ _ rfl
  have mergeable : Mergeable (earlier ++ later) := (aggregate_ok_iff dawn).mp ⟨_, rfl⟩
  refine ⟨?_, joining _ _ (countable _ _ rfl) (countable _ _ rfl) both,
    turning _ _ List.perm_append_comm both (countable _ _ rfl)⟩
  obtain ⟨s, m, counted, made, agree⟩ := agreeing _ both mergeable
  refine ⟨s, m, counted, made, agree, ?_⟩
  cases counted
  cases made
  exact ⟨rfl, rfl, rfl⟩

end LintHub
