import LintHub.Proofs.Report.Grouping
import Mathlib.Data.List.Nodup

/-! # What a comparison tells

A comparison puts each issue of its two sides into one of three lists and counts what changed. Two
comparisons that share a side fit together: the other way round what is new is resolved, and over a
history of runs the changes add up.
-/

namespace LintHub

/-! ## Counting severities -/

namespace Tally

variable {κ ι : Type} [DecidableEq ι] {view : κ → ι}

theorem count_cons (p : κ × Int) (t : Tally κ) (i : ι) :
    count view (p :: t) i = if view p.1 = i then p.2 else count view t i := by
  by_cases here : view p.1 = i <;> simp [count, here]

theorem count_add (t : Tally κ) (k : κ) (n : Int) (i : ι) :
    count view (add view t k n) i = count view t i + if view k = i then n else 0 := by
  induction t with
  | nil => by_cases here : view k = i <;> simp [count, add, here]
  | cons p t ih =>
    rw [add, count_cons]
    by_cases same : view p.1 = view k
    · rw [if_pos same, count_cons, same]
      by_cases here : view k = i <;> simp [here]
    · rw [if_neg same, count_cons]
      by_cases first : view p.1 = i
      · have other : view k ≠ i := fun h => same (first.trans h.symm)
        simp [first, other]
      · simp [first, ih]

/-- By induction on the keys, whatever was counted before. -/
theorem count_ofList (ks : List κ) (i : ι) :
    count view (ofList view ks) i = ks.countP fun k => view k = i := by
  have go (t : Tally κ) : count view (ks.foldl (fun t k => add view t k 1) t) i =
      count view t i + ks.countP fun k => view k = i := by
    induction ks generalizing t with
    | nil => simp
    | cons k ks ih =>
      rw [List.foldl_cons, ih, count_add, List.countP_cons]
      by_cases here : view k = i
      · simp [here]
        omega
      · simp [here]
  simpa [ofList, count] using go []

end Tally

theorem Severity.mem_all (s : Severity) : s ∈ Severity.all := by
  cases s <;> decide

/-- How many of the issues have a severity. -/
def severe (s : Severity) (is : List Issue) : Nat :=
  is.countP fun i => i.severity = s

theorem severityCount_eq (es : Keyed) (s : Severity) :
    severityCount es s = severe s (es.map (·.2)) := by
  unfold severityCount severe
  rw [Tally.count_ofList, List.countP_map, List.countP_map]
  rfl

/-- Each issue has one severity. -/
theorem sum_severe (is : List Issue) :
    (Severity.all.map fun s => (severe s is : Int)).sum = is.length := by
  induction is with
  | nil => rfl
  | cons i is ih =>
    simp only [Severity.all, List.map_cons, List.map_nil, List.sum_cons, List.sum_nil, severe,
      List.countP_cons, List.length_cons] at ih ⊢
    cases i.severity <;> simp <;> omega

/-! ## The sides of a comparison -/

/-- What a comparison sees of the issues of a side: those that were seen first, under their keys. -/
structure Seen (is : List Issue) (es : Keyed) : Prop where
  own : es.Own
  nodup : (es.map (·.1)).Nodup
  issues : es.map (·.2) = firstSeen is
  occurs : ∀ k, Occurs k is ↔ k ∈ es.map (·.1)

theorem seen_of_distinctKeyed {is : List Issue} {es : Keyed} (h : distinctKeyed is = .ok es) :
    Seen is es := by
  obtain ⟨all, keyed, rfl⟩ := map_ok_iff.mp h
  obtain ⟨rfl, own⟩ := withKeys_eq_ok_iff.mp keyed
  refine ⟨fun e he => own e ((firstByKey_sublist [] all).subset he), nodup_keys_firstByKey [] all,
    firstByKey_issues own, fun k => ?_⟩
  rw [mem_keys_firstByKey, occurs_iff own]

/-- A comparison that returns is one of what is seen of its sides. -/
theorem compare_ok {stamp : Stamp} {baseline current : List Analysis} {c : Comparison}
    (h : compare stamp baseline current = .ok c) :
    ∃ before after, distinctKeyed (baseline.flatMap (·.issues)) = .ok before ∧
      distinctKeyed (current.flatMap (·.issues)) = .ok after ∧
      c = Comparison.ofKeyed before after := by
  obtain ⟨left, right⟩ := (compare_ok_iff stamp).mp ⟨c, h⟩
  rw [compare_of_fit left.times right.times, bind_ok_iff] at h
  obtain ⟨before, seen, h⟩ := h
  obtain ⟨after, seen', h⟩ := bind_ok_iff.mp h
  exact ⟨before, after, seen, seen', (Except.ok.inj h).symm⟩

/-! ## The three lists -/

section Lists

variable {is : List Issue} {es other : Keyed}

/-- The entries whose keys `other` has. -/
def common (es other : Keyed) : Keyed :=
  es.filter fun e => (other.map (·.1)).contains e.1

theorem mem_common {e : IssueKey × Issue} :
    e ∈ common es other ↔ e ∈ es ∧ e.1 ∈ other.map (·.1) := by
  rw [common, List.mem_filter, List.contains_iff_mem]

theorem contains_eq_among (own : es.Own) (seen : Seen is other) {e : IssueKey × Issue}
    (he : e ∈ es) : (other.map (·.1)).contains e.1 = e.2.among is := by
  rw [Bool.eq_iff_iff, List.contains_iff_mem, among_iff (own e he), seen.occurs]

/-- Looking at keys is asking for issues with them. -/
theorem map_filter_among (own : es.Own) (seen : Seen is other) (p : Bool → Bool) :
    (es.filter fun e => p ((other.map (·.1)).contains e.1)).map (·.2) =
      (es.map (·.2)).filter fun i => p (i.among is) := by
  have alike := List.filter_congr fun e he => congrArg p (contains_eq_among own seen (e := e) he)
  rw [alike, List.filter_map]
  rfl

theorem shared_eq (own : es.Own) (seen : Seen is other) :
    shared es other = (es.map (·.2)).filter fun i => i.among is :=
  map_filter_among own seen fun there => there

theorem without_eq (own : es.Own) (seen : Seen is other) :
    without es other = (es.map (·.2)).filter fun i => !i.among is :=
  map_filter_among own seen not

theorem occurs_filter (own : es.Own) (p : IssueKey → Bool) {k : IssueKey} :
    Occurs k ((es.filter fun e => p e.1).map (·.2)) ↔ k ∈ es.map (·.1) ∧ p k = true := by
  have kept : Keyed.Own (es.filter fun e => p e.1) := fun e he => own e (List.mem_filter.mp he).1
  rw [occurs_iff kept]
  simp only [List.mem_map, List.mem_filter]
  constructor
  · rintro ⟨e, ⟨he, holds⟩, rfl⟩
    exact ⟨⟨e, he, rfl⟩, holds⟩
  · rintro ⟨⟨e, he, rfl⟩, holds⟩
    exact ⟨e, ⟨he, holds⟩, rfl⟩

theorem occurs_shared (own : es.Own) {k : IssueKey} :
    Occurs k (shared es other) ↔ k ∈ es.map (·.1) ∧ k ∈ other.map (·.1) := by
  have there : (other.map (·.1)).contains k = true ↔ k ∈ other.map (·.1) := List.contains_iff_mem
  rw [← there]
  exact occurs_filter own _

theorem occurs_without (own : es.Own) {k : IssueKey} :
    Occurs k (without es other) ↔ k ∈ es.map (·.1) ∧ k ∉ other.map (·.1) := by
  have there : (other.map (·.1)).contains k = true ↔ k ∈ other.map (·.1) := List.contains_iff_mem
  rw [← there, Bool.not_eq_true, ← Bool.not_eq_true']
  exact occurs_filter own fun k => !(other.map (·.1)).contains k

theorem without_append_shared_perm (es other : Keyed) :
    (without es other ++ shared es other).Perm (es.map (·.2)) := by
  rw [without, shared, ← List.map_append]
  have parts := List.filter_append_perm (fun e => (other.map (·.1)).contains e.1) es
  exact (List.perm_append_comm.trans parts).map _

end Lists

section Common

variable {β : Type} {es fs : Keyed} {view : Issue → β}

theorem mem_common_of_mem
    (agree : ∀ e ∈ es, ∀ f ∈ fs, e.1 = f.1 → view e.2 = view f.2) {p : IssueKey × β}
    (h : p ∈ (common es fs).map fun e => (e.1, view e.2)) :
    p ∈ (common fs es).map fun f => (f.1, view f.2) := by
  obtain ⟨e, he, rfl⟩ := List.mem_map.mp h
  obtain ⟨mine, there⟩ := mem_common.mp he
  obtain ⟨f, hf, key⟩ := List.mem_map.mp there
  have back : f.1 ∈ es.map (·.1) := List.mem_map.mpr ⟨e, mine, key.symm⟩
  have same := agree e mine f hf key.symm
  exact List.mem_map.mpr ⟨f, mem_common.mpr ⟨hf, back⟩, by rw [key, same]⟩

theorem common_nodup (nodup : (es.map (·.1)).Nodup) :
    ((common es fs).map fun e => (e.1, view e.2)).Nodup := by
  refine List.Nodup.of_map (·.1) ?_
  rw [List.map_map]
  exact nodup.sublist (List.filter_sublist.map _)

/-- Both sides have the common keys, each once, and whatever else they agree on. -/
theorem common_perm (view : Issue → β) (nodup : (es.map (·.1)).Nodup) (nodup' : (fs.map (·.1)).Nodup)
    (agree : ∀ e ∈ es, ∀ f ∈ fs, e.1 = f.1 → view e.2 = view f.2) :
    ((common es fs).map fun e => (e.1, view e.2)).Perm
      ((common fs es).map fun f => (f.1, view f.2)) := by
  rw [List.perm_ext_iff_of_nodup (common_nodup nodup) (common_nodup nodup')]
  intro p
  have agree' : ∀ f ∈ fs, ∀ e ∈ es, f.1 = e.1 → view f.2 = view e.2 :=
    fun f hf e he key => (agree e he f hf key.symm).symm
  exact ⟨mem_common_of_mem agree, mem_common_of_mem agree'⟩

end Common

theorem length_shared {es fs : Keyed} (nodup : (es.map (·.1)).Nodup)
    (nodup' : (fs.map (·.1)).Nodup) : (shared es fs).length = (shared fs es).length := by
  have perm := common_perm (fun _ => ()) nodup nodup' fun _ _ _ _ _ => rfl
  have lengths := perm.length_eq
  simp only [List.length_map] at lengths
  rw [shared, shared, List.length_map, List.length_map]
  exact lengths

theorem severe_shared {es fs : Keyed} (nodup : (es.map (·.1)).Nodup)
    (nodup' : (fs.map (·.1)).Nodup)
    (steady : ∀ e ∈ es, ∀ f ∈ fs, e.1 = f.1 → e.2.severity = f.2.severity) (s : Severity) :
    severe s (shared es fs) = severe s (shared fs es) := by
  have perm := common_perm Issue.severity nodup nodup' steady
  have counts := perm.countP_eq fun p => p.2 = s
  rw [List.countP_map, List.countP_map] at counts
  unfold severe shared
  rw [List.countP_map, List.countP_map]
  exact counts

theorem length_parts (es other : Keyed) :
    es.length = (without es other).length + (shared es other).length := by
  have lengths := (without_append_shared_perm es other).length_eq
  rw [List.length_append, List.length_map] at lengths
  exact lengths.symm

theorem severe_parts (es other : Keyed) (s : Severity) :
    severe s (es.map (·.2)) = severe s (without es other) + severe s (shared es other) := by
  have counts := (without_append_shared_perm es other).countP_eq fun i => i.severity = s
  rw [List.countP_append] at counts
  exact counts.symm

/-! ## One comparison -/

theorem mem_severityDeltas {before after : Keyed} {s : Severity} {n : Int} :
    (s, n) ∈ (Comparison.ofKeyed before after).severityDeltas ↔
      n = severe s (after.map (·.2)) - severe s (before.map (·.2)) := by
  simp only [Comparison.ofKeyed, List.mem_map, severityCount_eq]
  constructor
  · rintro ⟨t, -, h⟩
    cases h
    rfl
  · rintro rfl
    exact ⟨s, Severity.mem_all s, rfl⟩

/-- A comparison that accounts for each issue of its sides once. -/
structure Accounts (baseline current : List Issue) (c : Comparison) : Prop where
  new : c.new = (firstSeen current).filter fun i => !i.among baseline
  persistent : c.persistent = (firstSeen current).filter fun i => i.among baseline
  resolved : c.resolved = (firstSeen baseline).filter fun i => !i.among current
  apart : ∀ i ∈ c.new, ∀ j ∈ c.persistent, i.same j = false
  together : (c.new ++ c.persistent).Perm (firstSeen current)
  shared : ∀ k, Occurs k c.persistent ↔ Occurs k baseline ∧ Occurs k current
  countDelta : c.countDelta = c.new.length - c.resolved.length
  entries : c.severityDeltas.map (·.1) = Severity.all ∧ ∀ s, s ∈ Severity.all
  total : Tally.total c.severityDeltas = c.countDelta
  /-- Unless an issue changed its severity, what is new and what is resolved explain the rest. -/
  steady : (∀ i ∈ firstSeen baseline, ∀ j ∈ firstSeen current, i.same j = true →
      i.severity = j.severity) →
    ∀ s n, (s, n) ∈ c.severityDeltas → n = severe s c.new - severe s c.resolved

theorem total_severityDeltas (before after : Keyed) :
    Tally.total (Comparison.ofKeyed before after).severityDeltas = after.length - before.length := by
  have left := sum_severe (before.map (·.2))
  have right := sum_severe (after.map (·.2))
  rw [List.length_map] at left right
  rw [← left, ← right]
  simp only [Comparison.ofKeyed, Tally.total, Severity.all, severityCount_eq, List.map_cons,
    List.map_nil, List.foldr_cons, List.foldr_nil, List.sum_cons, List.sum_nil]
  omega

theorem accounts_ofKeyed {baseline current : List Issue} {before after : Keyed}
    (seen : Seen baseline before) (seen' : Seen current after) :
    Accounts baseline current (Comparison.ofKeyed before after) where
  new := by rw [← seen'.issues]; exact without_eq seen'.own seen
  persistent := by rw [← seen'.issues]; exact shared_eq seen'.own seen
  resolved := by rw [← seen.issues]; exact without_eq seen.own seen'
  apart := by
    intro i hi j hj
    rw [Bool.eq_false_iff]
    intro same
    obtain ⟨e, he, rfl⟩ := List.mem_map.mp hi
    have key := seen'.own e (List.mem_filter.mp he).1
    have gone := (occurs_without seen'.own).mp ⟨e.2, hi, key⟩
    have there := (occurs_shared seen'.own).mp ⟨j, hj, (same_iff key).mp same⟩
    exact gone.2 there.2
  together := by
    rw [← seen'.issues]
    exact without_append_shared_perm after before
  shared := by
    intro k
    rw [seen.occurs, seen'.occurs]
    exact (occurs_shared seen'.own).trans and_comm
  countDelta := by
    -- what both sides share is as much on either of them and cancels out
    have parts := length_parts after before
    have parts' := length_parts before after
    have same := length_shared seen.nodup seen'.nodup
    show (after.length : Int) - before.length =
      (without after before).length - (without before after).length
    omega
  entries := ⟨rfl, Severity.mem_all⟩
  total := total_severityDeltas before after
  steady := by
    intro steady s n h
    rw [← seen.issues, ← seen'.issues] at steady
    have parts := severe_parts after before s
    have parts' := severe_parts before after s
    have same := severe_shared seen.nodup seen'.nodup ?_ s
    · rw [mem_severityDeltas.mp h]
      show _ = (severe s (without after before) : Int) - severe s (without before after)
      omega
    · intro e he f hf key
      refine steady e.2 (List.mem_map_of_mem he) f.2 (List.mem_map_of_mem hf) ?_
      rw [same_iff (seen.own e he), key]
      exact seen'.own f hf

/-- Two sides are compared exactly if both can be merged, and the comparison accounts for each of
their issues once. -/
theorem comparison_accounts (stamp : Stamp) (baseline current : List Analysis) :
    ((∃ c, compare stamp baseline current = .ok c) ↔ Mergeable baseline ∧ Mergeable current) ∧
    ∀ c, compare stamp baseline current = .ok c →
      Accounts (baseline.flatMap (·.issues)) (current.flatMap (·.issues)) c := by
  refine ⟨compare_ok_iff stamp, fun c h => ?_⟩
  obtain ⟨before, after, seen, seen', rfl⟩ := compare_ok h
  exact accounts_ofKeyed (seen_of_distinctKeyed seen) (seen_of_distinctKeyed seen')

/-- A run before and a run after: one issue is gone, one got worse, one is new. -/
def earlier : List Analysis := [runOf [issueAt 3 .error, issueAt 5 .info, issueAt 3 .info] true]

def later : List Analysis := [runOf [issueAt 7 .warning] true, runOf [issueAt 5 .critical] false]

theorem comparison_accounts_worse :
    ∃ c, compare dawn earlier later = .ok c ∧
      Accounts (earlier.flatMap (·.issues)) (later.flatMap (·.issues)) c ∧
      c.new = [issueAt 7 .warning] ∧ c.persistent = [issueAt 5 .critical] ∧
      c.resolved = [issueAt 3 .error] := by
  obtain ⟨c, compared, new, persistent, resolved⟩ : ∃ c, compare dawn earlier later = .ok c ∧
      c.new = [issueAt 7 .warning] ∧ c.persistent = [issueAt 5 .critical] ∧
      c.resolved = [issueAt 3 .error] := ⟨_, rfl, rfl, rfl, rfl⟩
  exact ⟨c, compared, (comparison_accounts dawn earlier later).2 c compared, new, persistent,
    resolved⟩

/-! ## Several comparisons -/

/-- A comparison and the one with its sides exchanged. -/
structure Mirrors (there back : Comparison) : Prop where
  new : back.new = there.resolved
  resolved : back.resolved = there.new
  persistent : ∀ k, Occurs k back.persistent ↔ Occurs k there.persistent
  countDelta : back.countDelta = -there.countDelta
  severityDeltas : ∀ s n, (s, n) ∈ back.severityDeltas ↔ (s, -n) ∈ there.severityDeltas

/-- A comparison over two steps and those of each step. -/
structure Composes (first second whole : Comparison) : Prop where
  countDelta : whole.countDelta = first.countDelta + second.countDelta
  severityDeltas : ∀ s m n, (s, m) ∈ first.severityDeltas → (s, n) ∈ second.severityDeltas →
    (s, m + n) ∈ whole.severityDeltas
  new : ∀ k, Occurs k whole.new → Occurs k first.new ∨ Occurs k second.new
  resolved : ∀ k, Occurs k whole.resolved → Occurs k first.resolved ∨ Occurs k second.resolved

theorem mirrors_ofKeyed {es fs : Keyed} (own : es.Own) (own' : fs.Own) :
    Mirrors (Comparison.ofKeyed es fs) (Comparison.ofKeyed fs es) where
  new := rfl
  resolved := rfl
  persistent := by
    intro k
    show Occurs k (shared es fs) ↔ Occurs k (shared fs es)
    rw [occurs_shared own, occurs_shared own', and_comm]
  countDelta := by
    show (es.length : Int) - fs.length = -((fs.length : Int) - es.length)
    omega
  severityDeltas := by
    intro s n
    rw [mem_severityDeltas, mem_severityDeltas]
    omega

/-- A key that only the last run has is new in the step after the last run without it. -/
theorem composes_ofKeyed {es fs gs : Keyed} (own : es.Own) (own' : fs.Own) (own'' : gs.Own) :
    Composes (Comparison.ofKeyed es fs) (Comparison.ofKeyed fs gs) (Comparison.ofKeyed es gs) where
  countDelta := by
    show (gs.length : Int) - es.length =
      ((fs.length : Int) - es.length) + ((gs.length : Int) - fs.length)
    omega
  severityDeltas := by
    intro s m n hm hn
    rw [mem_severityDeltas] at hm hn ⊢
    omega
  new := by
    intro k h
    obtain ⟨last, first⟩ := (occurs_without own'').mp h
    by_cases between : k ∈ fs.map (·.1)
    · exact .inl ((occurs_without own').mpr ⟨between, first⟩)
    · exact .inr ((occurs_without own'').mpr ⟨last, between⟩)
  resolved := by
    intro k h
    obtain ⟨first, last⟩ := (occurs_without own).mp h
    by_cases between : k ∈ fs.map (·.1)
    · exact .inr ((occurs_without own').mpr ⟨between, last⟩)
    · exact .inl ((occurs_without own).mpr ⟨first, between⟩)

/-- Sides that can be merged can be compared either way round and over any step, and comparisons fit
together. -/
theorem comparisons_fit_together :
    (∀ (stamp : Stamp) (as bs : List Analysis),
      (∃ ab, compare stamp as bs = .ok ab) ↔ Mergeable as ∧ Mergeable bs) ∧
    (∀ (stamp stamp' : Stamp) (as bs : List Analysis) (ab : Comparison),
      compare stamp as bs = .ok ab → ∃ ba, compare stamp' bs as = .ok ba ∧ Mirrors ab ba) ∧
    ∀ (stamp stamp' stamp'' : Stamp) (as bs cs : List Analysis) (ab bc : Comparison),
      compare stamp as bs = .ok ab → compare stamp' bs cs = .ok bc →
      ∃ ac, compare stamp'' as cs = .ok ac ∧ Composes ab bc ac := by
  refine ⟨fun stamp as bs => compare_ok_iff stamp, ?_, ?_⟩
  · intro stamp stamp' as bs ab there
    obtain ⟨left, right⟩ := (compare_ok_iff stamp).mp ⟨ab, there⟩
    obtain ⟨es, fs, seen, seen', rfl⟩ := compare_ok there
    refine ⟨Comparison.ofKeyed fs es, ?_, ?_⟩
    · rw [compare_of_fit right.times left.times, seen, seen']
      rfl
    · exact mirrors_ofKeyed (seen_of_distinctKeyed seen).own (seen_of_distinctKeyed seen').own
  · intro stamp stamp' stamp'' as bs cs ab bc first second
    obtain ⟨left, -⟩ := (compare_ok_iff stamp).mp ⟨ab, first⟩
    obtain ⟨-, right⟩ := (compare_ok_iff stamp').mp ⟨bc, second⟩
    obtain ⟨es, fs, seen, seen', rfl⟩ := compare_ok first
    obtain ⟨fs', gs, again, seen'', rfl⟩ := compare_ok second
    cases seen'.symm.trans again
    refine ⟨Comparison.ofKeyed es gs, ?_, ?_⟩
    · rw [compare_of_fit left.times right.times, seen, seen'']
      rfl
    · exact composes_ofKeyed (seen_of_distinctKeyed seen).own (seen_of_distinctKeyed seen').own
        (seen_of_distinctKeyed seen'').own

theorem comparisons_fit_together_worse :
    ∃ there back onward whole, compare dawn earlier later = .ok there ∧
      compare dawn later earlier = .ok back ∧ compare dawn later twoGroups.analyses = .ok onward ∧
      compare dawn earlier twoGroups.analyses = .ok whole ∧ Mirrors there back ∧
      Composes there onward whole ∧ back.new = [issueAt 3 .error] := by
  obtain ⟨-, mirrored, composed⟩ := comparisons_fit_together
  obtain ⟨there, step, gone⟩ : ∃ c, compare dawn earlier later = .ok c ∧
      c.resolved = [issueAt 3 .error] := ⟨_, rfl, rfl⟩
  obtain ⟨onward, next⟩ : ∃ c, compare dawn later twoGroups.analyses = .ok c := ⟨_, rfl⟩
  obtain ⟨back, returns, mirrors⟩ := mirrored dawn dawn earlier later there step
  obtain ⟨whole, wide, composes⟩ := composed dawn dawn dawn earlier later _ there onward step next
  exact ⟨there, back, onward, whole, step, returns, next, wide, mirrors, composes,
    mirrors.new.trans gone⟩

end LintHub
