import LintHub.Proofs.Report.Merging

/-! # Merging in groups

Analyses may be merged at once, or in groups first and the merged analyses of the groups then. What
is told is the same: first issues, sums and success do not depend on where the groups end.
-/

namespace LintHub

open Time

/-- Both come to results that are related, or both to the same fault. -/
inductive SameOutcome {α β : Type} (R : α → β → Prop) : Except Fault α → Except Fault β → Prop where
  | ok {a : α} {b : β} (related : R a b) : SameOutcome R (.ok a) (.ok b)
  | error (f : Fault) : SameOutcome R (.error f) (.error f)

/-- Merged analyses that differ in their marks and in the wording of what failed at most. -/
structure Analysis.Agrees (a b : Analysis) : Prop where
  issues : a.issues = b.issues
  filesAnalyzed : a.filesAnalyzed = b.filesAnalyzed
  executionTime : a.executionTime = b.executionTime
  success : a.success = b.success

/-- Analyses in groups, each with what its merged analysis is marked with. -/
abbrev Groups := List (Stamp × List Analysis)

namespace Groups

/-- The analyses of all groups. -/
def analyses (gs : Groups) : List Analysis :=
  gs.flatMap (·.2)

/-- One merged analysis for each group. -/
def merge (gs : Groups) : Except Fault (List Analysis) :=
  gs.mapM fun g => aggregate g.1 g.2

theorem analyses_cons (g : Stamp × List Analysis) (gs : Groups) :
    analyses (g :: gs) = g.2 ++ analyses gs :=
  List.flatMap_cons

theorem merge_cons (g : Stamp × List Analysis) (gs : Groups) :
    merge (g :: gs) = aggregate g.1 g.2 >>= fun m => merge gs >>= fun ms => pure (m :: ms) :=
  List.mapM_cons ..

/-- The times can be added up, over all groups and in each of them. -/
structure Fit (gs : Groups) : Prop where
  whole : TimesFit gs.analyses
  each : ∀ g ∈ gs, TimesFit g.2

/-- The analyses of all groups, or those that the groups are merged to. -/
inductive Side (gs : Groups) : List Analysis → Prop where
  | whole : Side gs gs.analyses
  | merged {bs : List Analysis} (made : gs.merge = .ok bs) : Side gs bs

end Groups

/-! ## What failed -/

theorem failureTexts_eq_nil_iff {as : List Analysis} :
    failureTexts as = [] ↔ ∀ a ∈ as, a.success = true := by
  unfold failureTexts
  rw [List.map_eq_nil_iff, List.filter_eq_nil_iff]
  simp

/-- What is told of failures is empty only if there is none, as each has a colon. -/
theorem intercalate_failureTexts {as : List Analysis} :
    String.intercalate "; " (failureTexts as) = "" ↔ failureTexts as = [] := by
  have told : ∀ t ∈ failureTexts as, t.toList ≠ [] := by
    intro t ht
    obtain ⟨a, -, rfl⟩ := List.mem_map.mp ht
    simp
  cases texts : failureTexts as with
  | nil => simp
  | cons t ts =>
    rw [texts] at told
    have first := told t (List.mem_cons_self ..)
    rw [← String.toList_inj, String.toList_intercalate]
    cases ts <;> simp [first]

theorem merged_success {stamp : Stamp} {as : List Analysis} {time : Span} {es : Keyed} :
    (merged stamp as time es).success = true ↔ ∀ a ∈ as, a.success = true := by
  rw [← failureTexts_eq_nil_iff]
  exact List.isEmpty_iff

/-! ## Groups -/

theorem sumsFit_append {start : Int} {xs ys : List Span} (fit : SumsFit start (xs ++ ys)) :
    IsSpan (start + (xs.map (·.micros)).sum) ∧ SumsFit (start + (xs.map (·.micros)).sum) ys := by
  constructor
  · simpa using fit xs.length
  · intro n
    have more := fit (xs.length + n)
    rw [List.take_length_add_append, List.map_append, List.sum_append, ← add_assoc] at more
    exact more

theorem withKeys_append {xs ys : List Issue} {es fs : Keyed} (hx : withKeys xs = .ok es)
    (hy : withKeys ys = .ok fs) : withKeys (xs ++ ys) = .ok (es ++ fs) := by
  obtain ⟨rfl, own⟩ := withKeys_eq_ok_iff.mp hx
  obtain ⟨rfl, own'⟩ := withKeys_eq_ok_iff.mp hy
  refine withKeys_eq_ok_iff.mpr ⟨List.map_append, fun e he => ?_⟩
  rcases List.mem_append.mp he with he | he
  · exact own e he
  · exact own' e he

theorem withKeys_append_error_iff {xs ys : List Issue} {f : Fault} :
    withKeys (xs ++ ys) = .error f ↔
      withKeys xs = .error f ∨ ∃ es, withKeys xs = .ok es ∧ withKeys ys = .error f := by
  unfold withKeys
  rw [List.mapM_append]
  simp only [bind_error_iff]
  constructor
  · rintro (first | ⟨es, fine, second | ⟨fs, -, done⟩⟩)
    · exact .inl first
    · exact .inr ⟨es, fine, second⟩
    · cases done
  · rintro (first | ⟨es, fine, second⟩)
    · exact .inl first
    · exact .inr ⟨es, fine, .inl second⟩

/-- What analyses have in common with those that their groups are merged to. -/
structure Regrouped (as bs : List Analysis) : Prop where
  keys : ∃ ess : List Keyed, withKeys (as.flatMap (·.issues)) = .ok ess.flatten ∧
    withKeys (bs.flatMap (·.issues)) = .ok (ess.flatMap (firstByKey []))
  fit : ∀ start : Span, SumsFit start.micros (as.map (·.executionTime)) →
    SumsFit start.micros (bs.map (·.executionTime))
  times : (bs.map (·.executionTime.micros)).sum = (as.map (·.executionTime.micros)).sum
  files : (bs.map (·.filesAnalyzed)).sum = (as.map (·.filesAnalyzed)).sum
  success : (∀ b ∈ bs, b.success = true) ↔ ∀ a ∈ as, a.success = true

theorem Regrouped.nil : Regrouped [] [] where
  keys := ⟨[], rfl, rfl⟩
  fit := fun _ h => h
  times := rfl
  files := rfl
  success := Iff.rfl

theorem merged_files {stamp : Stamp} {as : List Analysis} {time : Span} {es : Keyed} :
    (merged stamp as time es).filesAnalyzed = (as.map (·.filesAnalyzed)).sum := by
  rw [List.sum_eq_foldr, List.foldr_map]
  rfl

/-- One more group in front. -/
theorem Regrouped.cons {stamp : Stamp} {group as bs : List Analysis} {m : Analysis}
    (made : aggregate stamp group = .ok m) (rest : Regrouped as bs) :
    Regrouped (group ++ as) (m :: bs) := by
  obtain ⟨time, es, added, keyed, rfl⟩ := aggregate_eq_ok_iff.mp made
  have total := sum_times added
  obtain ⟨ess, before, after⟩ := rest.keys
  refine ⟨⟨es :: ess, ?_, ?_⟩, fun start fit => ?_, ?_, ?_, ?_⟩
  · rw [List.flatMap_append]
    exact withKeys_append keyed before
  · rw [List.flatMap_cons]
    exact withKeys_append (merged_keys keyed) after
  · rw [List.map_append] at fit
    obtain ⟨span, fits⟩ := sumsFit_append fit
    rw [List.map_map] at span fits
    have behind : SumsFit (start.micros + time.micros) (as.map (·.executionTime)) := by
      rw [total]
      exact fits
    have sum : IsSpan (start.micros + time.micros) := by
      rw [total]
      exact span
    exact sumsFit_cons.mpr ⟨sum, rest.fit ⟨_, sum⟩ behind⟩
  · rw [List.map_cons, List.sum_cons, List.map_append, List.sum_append, rest.times, ← total]
    rfl
  · rw [List.map_cons, List.sum_cons, List.map_append, List.sum_append, rest.files, merged_files]
  · rw [List.forall_mem_cons, List.forall_mem_append, rest.success, merged_success]

/-- By induction on the groups. -/
theorem regrouped_of_merge {gs : Groups} {bs : List Analysis} (made : gs.merge = .ok bs) :
    Regrouped gs.analyses bs := by
  induction gs generalizing bs with
  | nil =>
    cases made
    exact .nil
  | cons g gs ih =>
    rw [Groups.merge_cons] at made
    obtain ⟨m, first, made⟩ := bind_ok_iff.mp made
    obtain ⟨rest, others, made⟩ := bind_ok_iff.mp made
    cases made
    rw [Groups.analyses_cons]
    exact .cons first (ih others)

/-- Groups whose times can be added up fail at the first issue without a key. -/
theorem merge_error_iff {gs : Groups} (each : ∀ g ∈ gs, TimesFit g.2) {f : Fault} :
    gs.merge = .error f ↔ withKeys (gs.analyses.flatMap (·.issues)) = .error f := by
  induction gs with
  | nil => exact ⟨fun h => (nomatch h), fun h => (nomatch h)⟩
  | cons g gs ih =>
    obtain ⟨first, others⟩ := List.forall_mem_cons.mp each
    obtain ⟨time, -, made⟩ := aggregate_of_fit first
    have alone : ∀ m : Analysis, (Groups.merge gs >>= fun ms => pure (m :: ms)) = .error f ↔
        Groups.merge gs = .error f := by
      intro m
      cases Groups.merge gs <;> simp [bind, Except.bind, pure, Except.pure]
    rw [Groups.merge_cons, Groups.analyses_cons, List.flatMap_append, withKeys_append_error_iff,
      bind_error_iff, made, map_error_iff, ← ih others]
    simp only [alone, map_ok_iff]
    constructor
    · rintro (fails | ⟨m, ⟨es, keyed, -⟩, fails⟩)
      · exact .inl fails
      · exact .inr ⟨es, keyed, fails⟩
    · rintro (fails | ⟨es, keyed, fails⟩)
      · exact .inl fails
      · exact .inr ⟨_, ⟨es, keyed, rfl⟩, fails⟩

theorem Regrouped.timesFit {as bs : List Analysis} (h : Regrouped as bs) (fit : TimesFit as) :
    TimesFit bs :=
  h.fit Span.zero fit

theorem Regrouped.distinctKeyed {as bs : List Analysis} (h : Regrouped as bs) :
    distinctKeyed (bs.flatMap (·.issues)) = distinctKeyed (as.flatMap (·.issues)) := by
  obtain ⟨ess, before, after⟩ := h.keys
  rw [LintHub.distinctKeyed, LintHub.distinctKeyed, before, after]
  exact congrArg Except.ok (firstByKey_groups [] ess)

theorem Groups.Side.law {gs : Groups} {as : List Analysis} (fit : gs.Fit) (side : gs.Side as) :
    TimesFit as ∧
      distinctKeyed (as.flatMap (·.issues)) = distinctKeyed (gs.analyses.flatMap (·.issues)) := by
  cases side with
  | whole => exact ⟨fit.whole, rfl⟩
  | merged made =>
    have same := regrouped_of_merge made
    exact ⟨same.timesFit fit.whole, same.distinctKeyed⟩

/-- Merging groups and then what they are merged to comes to what merging all at once comes to. -/
theorem merge_aggregate {gs : Groups} (fit : gs.Fit) (stamp stamp' : Stamp) :
    SameOutcome Analysis.Agrees (gs.merge >>= aggregate stamp) (aggregate stamp' gs.analyses) := by
  obtain ⟨time, total, made⟩ := aggregate_of_fit fit.whole
  cases grouped : gs.merge with
  | error f =>
    have fails := (merge_error_iff fit.each).mp grouped
    rw [made, fails]
    exact .error f
  | ok bs =>
    have same := regrouped_of_merge grouped
    obtain ⟨time', total', made'⟩ := aggregate_of_fit (same.timesFit fit.whole)
    obtain ⟨ess, before, after⟩ := same.keys
    show SameOutcome _ (aggregate stamp bs) _
    rw [made, made', before, after]
    refine .ok ⟨?_, ?_, ?_, ?_⟩
    · exact congrArg (·.map (·.2)) (firstByKey_groups [] ess)
    · rw [merged_files, merged_files, same.files]
    · have micros : time'.micros = time.micros := by rw [total, total', same.times]
      exact Span.eq_of_micros micros
    · rw [Bool.eq_iff_iff, merged_success, merged_success, same.success]

/-! ## The law -/

/-- Merging does not depend on groups, nor does comparing; a merged analysis succeeds if all that
went into it did, and only then has no message. -/
theorem groups_do_not_matter :
    (∀ (gs : Groups) (stamp stamp' : Stamp), gs.Fit →
      SameOutcome Analysis.Agrees (gs.merge >>= aggregate stamp) (aggregate stamp' gs.analyses) ∧
      ((∃ m, aggregate stamp' gs.analyses = .ok m) ↔
        ∀ i ∈ gs.analyses.flatMap (·.issues), i.Keyed)) ∧
    (∀ (gs hs : Groups) (stamp stamp' : Stamp) (bs cs : List Analysis), gs.Fit → hs.Fit →
      gs.Side bs → hs.Side cs →
      compare stamp bs cs = compare stamp' gs.analyses hs.analyses) ∧
    ∀ (as : List Analysis) (stamp : Stamp) (m : Analysis), aggregate stamp as = .ok m →
      (m.success = true ↔ ∀ a ∈ as, a.success = true) ∧
      (m.errorMessage = .str "" ↔ m.success = true) := by
  refine ⟨fun gs stamp stamp' fit => ⟨merge_aggregate fit stamp stamp', ?_⟩, ?_, ?_⟩
  · rw [aggregate_ok_iff]
    exact ⟨fun h => h.keys, fun keys => ⟨fit.whole, keys⟩⟩
  · intro gs hs stamp stamp' bs cs before after side side'
    obtain ⟨fit, same⟩ := side.law before
    obtain ⟨fit', same'⟩ := side'.law after
    rw [compare_of_fit fit fit', compare_of_fit before.whole after.whole, same, same']
  · intro as stamp m made
    obtain ⟨time, es, -, -, rfl⟩ := aggregate_eq_ok_iff.mp made
    refine ⟨merged_success, ?_⟩
    rw [merged_success, ← failureTexts_eq_nil_iff, ← intercalate_failureTexts]
    exact ⟨fun h => Json.str.inj h, congrArg Json.str⟩

/-! ## Two runs in two groups -/

def dawn : Stamp := ⟨"analysis", ⟨⟨2024, 1, 2⟩, 6, 0, 0, 0, 0⟩⟩

/-- An issue of one rule in one file. -/
def issueAt (line : Int) (s : Severity) : Issue :=
  ⟨.str "", .str "", .str "a.py", line, 0, s, .style, .str "E501", .str "", none⟩

/-- A run that took a second. -/
def runOf (issues : List Issue) (success : Bool) : Analysis :=
  { Analysis.new dawn (.str "ruff") with
    issues, success, filesAnalyzed := 1, executionTime := ⟨1000000, by decide⟩ }

/-- An issue that comes again in the second group, and a failed run. -/
def twoGroups : Groups :=
  [ (dawn, [runOf [issueAt 3 .error, issueAt 5 .info] true]),
    (dawn, [runOf [issueAt 5 .critical, issueAt 7 .warning] true, runOf [] false]) ]

theorem twoGroups_fit : twoGroups.Fit where
  whole := sum_times_ok_iff.mp ⟨⟨3000000, by decide⟩, rfl⟩
  each := by
    intro g hg
    simp only [twoGroups, List.mem_cons, List.not_mem_nil, or_false] at hg
    rcases hg with rfl | rfl
    · exact sum_times_ok_iff.mp ⟨⟨1000000, by decide⟩, rfl⟩
    · exact sum_times_ok_iff.mp ⟨⟨2000000, by decide⟩, rfl⟩

theorem groups_do_not_matter_two :
    SameOutcome Analysis.Agrees (twoGroups.merge >>= aggregate dawn)
      (aggregate dawn twoGroups.analyses) ∧
    (∃ m, aggregate dawn twoGroups.analyses = .ok m ∧
      m.issues = [issueAt 3 .error, issueAt 5 .info, issueAt 7 .warning] ∧ m.success = false ∧
      m.errorMessage ≠ .str "") ∧
    ∃ bs, twoGroups.merge = .ok bs ∧
      compare dawn bs [] = compare dawn twoGroups.analyses [] := by
  obtain ⟨merging, comparing, telling⟩ := groups_do_not_matter
  obtain ⟨same, -⟩ := merging twoGroups dawn dawn twoGroups_fit
  have nothing : Groups.Fit [] := ⟨sum_times_ok_iff.mp ⟨_, rfl⟩, fun g hg => (nomatch hg)⟩
  refine ⟨same, ?_, ?_⟩
  · obtain ⟨m, made, issues, fails⟩ : ∃ m, aggregate dawn twoGroups.analyses = .ok m ∧
        m.issues = [issueAt 3 .error, issueAt 5 .info, issueAt 7 .warning] ∧ m.success = false :=
      ⟨_, rfl, rfl, rfl⟩
    refine ⟨m, made, issues, fails, fun silent => ?_⟩
    have succeeds := (telling _ _ _ made).2.mp silent
    rw [fails] at succeeds
    cases succeeds
  · obtain ⟨bs, made⟩ : ∃ bs, twoGroups.merge = .ok bs := ⟨_, rfl⟩
    exact ⟨bs, made, comparing _ [] _ _ _ _ twoGroups_fit nothing (.merged made) .whole⟩

end LintHub
