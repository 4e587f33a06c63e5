import LintHub.Proofs.Gate.Verdict
import LintHub.Proofs.Report.Grouping
import Mathlib.Algebra.Order.BigOperators.Group.List

/-! # The verdict on a saved report

What the gate says of a report that was saved is what the saved analyses call for: nothing that counts
is lost between them, and a gate that asks for less never fails where one that asks for more passes.
-/

namespace LintHub

open Time

/-- Without negative spans the whole sum is the greatest of the sums on the way. -/
theorem sumsFit_of_nonneg {spans : List Span} (nonneg : ∀ x ∈ spans.map (·.micros), 0 ≤ x)
    (sum : IsSpan (spans.map (·.micros)).sum) : SumsFit 0 spans := by
  intro n
  rw [List.map_take]
  have front := List.sum_nonneg fun x hx => nonneg x (List.mem_of_mem_take (i := n) hx)
  have back := List.sum_nonneg fun x hx => nonneg x (List.mem_of_mem_drop (i := n) hx)
  have whole := List.sum_take_add_sum_drop (spans.map (·.micros)) n
  unfold IsSpan maxDays microsPerDay at sum ⊢
  omega

namespace Analysis

/-! ## Analyses and what is loaded of them -/

variable {as bs : List Analysis}

theorem restored_issues (h : List.Forall₂ Restores as bs) :
    bs.flatMap (·.issues) = as.flatMap (·.issues) := by
  induction h with
  | nil => rfl
  | cons first _ ih => rw [List.flatMap_cons, List.flatMap_cons, first.issues, ih]

theorem restored_files (h : List.Forall₂ Restores as bs) : Gate.fileTotal bs = Gate.fileTotal as := by
  induction h with
  | nil => rfl
  | cons first _ ih =>
    show _ + Gate.fileTotal _ = _ + Gate.fileTotal _
    rw [first.filesAnalyzed, ih]

theorem restored_times (h : List.Forall₂ Restores as bs) :
    bs.map (·.executionTime.micros) = as.map fun a => a.executionTime.micros / 1000 * 1000 := by
  induction h with
  | nil => rfl
  | cons first _ ih => rw [List.map_cons, List.map_cons, first.executionTime, ih]

theorem restored_success (h : List.Forall₂ Restores as bs) :
    (∀ b ∈ bs, b.success = true) ↔ ∀ a ∈ as, a.success = true := by
  induction h with
  | nil => exact Iff.rfl
  | cons first _ ih => rw [List.forall_mem_cons, List.forall_mem_cons, first.success, ih]

end Analysis

namespace Store

/-- What is saved is loaded whenever it is asked for. -/
theorem loaded_of_saved {w : World} {path : String} {as : List Analysis}
    (writable : w.disk.Writable (Path.ofText path)) (typed : ∀ a ∈ as, a.Typed) :
    ∃ w', (saveAll as path).outcome w = (.ok (Path.ofText path), w') ∧
      ∀ now, ∃ bs, analysesOf now path (w'.disk.readBytes (Path.ofText path)) = .ok bs ∧
        List.Forall₂ Analysis.Restores as bs := by
  obtain ⟨docs, made, plain, read⟩ := mapM_toJson typed
  have whole : (Json.arr docs).Plain := plain
  obtain ⟨w', saved, bytes⟩ := save_plain writable whole
  refine ⟨w', ?_, fun now => ?_⟩
  · rw [outcome_saveAll, made]
    exact saved
  · obtain ⟨bs, loaded, restored⟩ := read now path 0
    refine ⟨bs, ?_, restored⟩
    rw [bytes, analysesOf, documentOf_encoded whole (.inl rfl)]
    exact loaded

end Store

namespace Gate

/-! ## The verdict -/

/-- A report fails: too many issues of a severity or above were first with their key, or a tool failed
that was not allowed to. -/
def Fails (as : List Analysis) (t : Severity) (m : Int) (allow : Bool) : Prop :=
  m < ((firstSeen (as.flatMap (·.issues))).filter fun i => t ≤ i.severity).length ∨
    (∃ a ∈ as, a.success = false) ∧ allow = false

/-- Analyses whose times, cut to the millisecond, and files have totals that can be told. -/
structure Tellable (as : List Analysis) : Prop where
  times : IsSpan (as.map fun a => a.executionTime.micros / 1000 * 1000).sum
  files : IsShort (fileTotal as)

/-- The gate ends with 1 if the report fails and with 0 if it passes. -/
def Judges (fails : Prop) (e : Except Fault Outcome) : Prop :=
  ∃ out, e = .ok out ∧ (out.exit = 1 ∧ fails ∨ out.exit = 0 ∧ ¬ fails)

/-- The gate lets a report pass. -/
def Passes (e : Except Fault Outcome) : Prop :=
  ∃ out, e = .ok out ∧ out.exit = 0

theorem Judges.passes_iff {fails : Prop} {e : Except Fault Outcome} (h : Judges fails e) :
    Passes e ↔ ¬ fails := by
  obtain ⟨out, ran, ⟨failed, fails⟩ | ⟨passed, fine⟩⟩ := h
  · refine ⟨fun ⟨out', ran', passed⟩ => ?_, fun fine => (fine fails).elim⟩
    cases ran.symm.trans ran'
    rw [failed] at passed
    cases passed
  · exact ⟨fun _ => fine, fun _ => ⟨out, ran, passed⟩⟩

theorem isShort_iff {i : Int} : IsShort i ↔ (Text.natText i.natAbs).length ≤ Json.digitLimit :=
  (Text.natText_length_le_iff (by decide)).symm

theorem counted_issues {t : Severity} {es : Keyed} (own : es.Own) :
    (counted t es).map (·.2) = (firstSeen (es.map (·.2))).filter fun i => t ≤ i.severity := by
  rw [← firstByKey_issues own, List.filter_map]
  rfl

theorem severity_le_trans {r s t : Severity} (h : r ≤ s) (h' : s ≤ t) : r ≤ t :=
  Nat.le_trans h h'

/-- More is let through the higher the severity and the budget, and if tools may fail. -/
theorem Fails.mono {as : List Analysis} {t t' : Severity} {m m' : Int} {allow allow' : Bool}
    (severity : t ≤ t') (budget : m ≤ m') (allowed : allow = true → allow' = true)
    (h : Fails as t' m' allow') : Fails as t m allow := by
  rcases h with many | ⟨failed, strict⟩
  · have fewer := (List.monotone_filter_right (firstSeen (as.flatMap (·.issues)))
      (p := fun i => decide (t' ≤ i.severity)) (q := fun i => decide (t ≤ i.severity))
      fun i hi => by
        rw [decide_eq_true_eq] at hi ⊢
        exact severity_le_trans severity hi).length_le
    exact .inl (by omega)
  · refine .inr ⟨failed, ?_⟩
    rw [Bool.eq_false_iff]
    intro h
    rw [allowed h] at strict
    cases strict

variable {stamp : Stamp} {disk : Disk} {path : String} {as bs : List Analysis} {t : Severity}
  {m : Int} {allow : Bool}

theorem classify_path (undashed : path.toList.head? ≠ some '-') :
    classify path = .ok .positional := by
  cases chars : path.toList with
  | nil =>
    unfold classify
    rw [chars]
  | cons c cs =>
    refine classify_undashed chars fun dash => undashed ?_
    rw [chars, dash]
    rfl

/-- A report is judged by the analyses that are loaded from it. -/
theorem run_loaded (positional : classify path = .ok .positional)
    (loads : Store.analysesOf stamp.time path (disk.readBytes (.ofText path)) = .ok bs)
    (times : TimesFit bs) (keyed : ∀ i ∈ bs.flatMap (·.issues), i.Keyed)
    (files : IsShort (fileTotal bs)) (short : IsShort m) :
    Judges (Fails bs t m allow) (run stamp disk (budgetArguments path t m allow)) := by
  obtain ⟨es, keys⟩ := withKeys_ok_iff.mpr keyed
  obtain ⟨text, ran⟩ := run_judged t allow
    ⟨positional, loads, times, keys, isShort_iff.mp files⟩ (isShort_iff.mp short)
  have count : (counted t es).length =
      ((firstSeen (bs.flatMap (·.issues))).filter fun i => t ≤ i.severity).length := by
    obtain ⟨issues, own⟩ := withKeys_eq_ok_iff.mp keys
    rw [← issues, ← counted_issues own, List.length_map]
  have failures : failureTexts bs ≠ [] ↔ ∃ a ∈ bs, a.success = false := by
    rw [Ne, failureTexts_eq_nil_iff]
    simp
  have fails : (m < (counted t es).length ∨ failureTexts bs ≠ [] ∧ allow = false) ↔
      Fails bs t m allow := by
    rw [count, failures]
    rfl
  refine ⟨_, ran, ?_⟩
  by_cases h : Fails bs t m allow
  · exact .inl ⟨if_pos (fails.mpr h), h⟩
  · exact .inr ⟨if_neg (mt fails.mp h), h⟩

/-- A budget of too many digits ends the gate before it looks at the report. -/
theorem run_long (positional : classify path = .ok .positional) (long : ¬ IsShort m) :
    ∃ text, run stamp disk (budgetArguments path t m allow) = .ok ⟨2, "", text⟩ := by
  have digits : Json.digitLimit < (Text.natText m.natAbs).length :=
    Nat.lt_of_not_le (mt isShort_iff.mpr long)
  unfold run
  rw [ofArguments_budget_eq t m allow positional, if_pos digits]
  exact ⟨_, rfl⟩

theorem files_of_verdict {o : Options} {a : Analysis} {out : Outcome} (h : verdict o a = .ok out) :
    IsShort a.filesAnalyzed := by
  obtain ⟨lines, told, -⟩ := bind_ok_iff.mp h
  obtain ⟨files, written, -⟩ := bind_ok_iff.mp told
  rw [isShort_iff]
  by_contra long
  rw [numberText, if_pos (Nat.lt_of_not_le long)] at written
  cases written

/-- A gate that does not end with 2 has read its budget and told all totals. -/
theorem of_judged (positional : classify path = .ok .positional)
    (loads : Store.analysesOf stamp.time path (disk.readBytes (.ofText path)) = .ok bs)
    {out : Outcome} (ran : run stamp disk (budgetArguments path t m allow) = .ok out)
    (judged : out.exit ≠ 2) : IsShort m ∧ TimesFit bs ∧ IsShort (fileTotal bs) := by
  have short : IsShort m := by
    by_contra long
    obtain ⟨text, refused⟩ : ∃ text, run stamp disk (budgetArguments path t m allow) =
        .ok ⟨2, "", text⟩ := run_long positional long
    cases ran.symm.trans refused
    exact judged rfl
  unfold run at ran
  rw [ofArguments_budget positional (isShort_iff.mp short)] at ran
  dsimp only [judge] at ran
  split at ran
  · next a made =>
    rw [loads] at made
    obtain ⟨time, es, added, -, rfl⟩ := aggregate_eq_ok_iff.mp made
    exact ⟨short, sum_times_ok_iff.mp ⟨time, added⟩, files_of_verdict ran⟩
  · cases ran
    exact (judged rfl).elim
  · cases ran

/-! ## Saving, then judging -/

theorem Tellable.restored (typed : ∀ a ∈ as, a.Typed) (restored : List.Forall₂ Analysis.Restores as bs) :
    Tellable as ↔ TimesFit bs ∧ IsShort (fileTotal bs) := by
  have same : (bs.map (·.executionTime)).map (·.micros) =
      as.map fun a => a.executionTime.micros / 1000 * 1000 := by
    rw [List.map_map]
    exact Analysis.restored_times restored
  rw [Analysis.restored_files restored]
  constructor
  · rintro ⟨times, files⟩
    refine ⟨sumsFit_of_nonneg ?_ (by rw [same]; exact times), files⟩
    rw [same]
    intro x hx
    obtain ⟨a, ha, rfl⟩ := List.mem_map.mp hx
    have nonneg := (typed a ha).executionTime.1
    omega
  · rintro ⟨times, files⟩
    refine ⟨?_, files⟩
    have whole := times (bs.map (·.executionTime)).length
    rw [List.take_length, same] at whole
    simpa using whole

theorem Fails.restored (restored : List.Forall₂ Analysis.Restores as bs) :
    Fails bs t m allow ↔ Fails as t m allow := by
  have failures : (∃ b ∈ bs, b.success = false) ↔ ∃ a ∈ as, a.success = false := by
    have successes := Analysis.restored_success restored
    rw [← not_iff_not]
    simpa using successes
  unfold Fails
  rw [Analysis.restored_issues restored, failures]

theorem keyed_of_typed (typed : ∀ a ∈ as, a.Typed) : ∀ i ∈ as.flatMap (·.issues), i.Keyed := by
  intro i hi
  obtain ⟨a, ha, hi⟩ := List.mem_flatMap.mp hi
  obtain ⟨file, isFile⟩ := ((typed a ha).issues i hi).filePath
  obtain ⟨rule, isRule⟩ := ((typed a ha).issues i hi).ruleId
  exact ⟨by simp [isFile, Json.IsKey, Json.kind], by simp [isRule, Json.IsKey, Json.kind]⟩

/-- A report that was saved is judged by what was saved, exactly if its totals can be told and the
budget can be read; asking for less never makes it fail. -/
theorem saved_report_verdict {w : World} {path : String} {as : List Analysis}
    (writable : w.disk.Writable (Path.ofText path)) (undashed : path.toList.head? ≠ some '-')
    (typed : ∀ a ∈ as, a.Typed) :
    ∃ p w', (Store.saveAll as path).outcome w = (.ok p, w') ∧
      ∀ (stamp : Stamp) (t : Severity) (m : Int) (allow : Bool),
        (Tellable as → IsShort m →
          Judges (Fails as t m allow)
            (run stamp w'.disk (budgetArguments path t m allow))) ∧
        (∀ out, run stamp w'.disk (budgetArguments path t m allow) = .ok out → out.exit ≠ 2 →
          Tellable as ∧ IsShort m) ∧
        ∀ (stamp' : Stamp) (t' : Severity) (m' : Int) (allow' : Bool), t ≤ t' → m ≤ m' →
          (allow = true → allow' = true) → IsShort m' →
          Passes (run stamp w'.disk (budgetArguments path t m allow)) →
          Passes (run stamp' w'.disk (budgetArguments path t' m' allow')) := by
  obtain ⟨w', saved, loads⟩ := Store.loaded_of_saved writable typed
  have positional := classify_path undashed
  have judges (stamp : Stamp) (t : Severity) (m : Int) (allow : Bool) (tellable : Tellable as)
      (short : IsShort m) :
      Judges (Fails as t m allow) (run stamp w'.disk (budgetArguments path t m allow)) := by
    obtain ⟨bs, loaded, restored⟩ := loads stamp.time
    obtain ⟨times, files⟩ := (Tellable.restored typed restored).mp tellable
    have keyed := keyed_of_typed typed
    rw [← Analysis.restored_issues restored] at keyed
    rw [← Fails.restored restored]
    exact run_loaded positional loaded times keyed files short
  have needs (stamp : Stamp) (t : Severity) (m : Int) (allow : Bool) (out : Outcome)
      (ran : run stamp w'.disk (budgetArguments path t m allow) = .ok out) (judged : out.exit ≠ 2) :
      Tellable as ∧ IsShort m := by
    obtain ⟨bs, loaded, restored⟩ := loads stamp.time
    obtain ⟨short, totals⟩ := of_judged positional loaded ran judged
    exact ⟨(Tellable.restored typed restored).mpr totals, short⟩
  refine ⟨_, w', saved, fun stamp t m allow => ⟨judges stamp t m allow, needs stamp t m allow, ?_⟩⟩
  intro stamp' t' m' allow' severity budget allowed short' passes
  obtain ⟨out, ran, passed⟩ := passes
  -- that the first gate came to a verdict shows that the totals can be told at the second one too
  obtain ⟨tellable, short⟩ := needs stamp t m allow out ran (by rw [passed]; decide)
  have fine := (judges stamp t m allow tellable short).passes_iff.mp ⟨out, ran, passed⟩
  rw [(judges stamp' t' m' allow' tellable short').passes_iff]
  exact fun fails => fine (fails.mono severity budget allowed)

theorem yearsEnds_tellable : Tellable [Store.yearsEnd, Store.yearsEnd] where
  times := ⟨by decide, by decide⟩
  files :=
    have few : (fileTotal [Store.yearsEnd, Store.yearsEnd]).natAbs < 10 ^ 2 := by decide
    Nat.lt_of_lt_of_le few (Nat.pow_le_pow_right (by decide) (by decide))

/-- The same issue twice is one issue too many for no budget and not for a budget of one. -/
theorem saved_report_verdict_yearsEnds :
    ∃ p w', (Store.saveAll [Store.yearsEnd, Store.yearsEnd] "r.json").outcome
        (World.bare .default) = (.ok p, w') ∧
      ¬ Passes (run noon w'.disk (budgetArguments "r.json" .error 0 true)) ∧
      Passes (run noon w'.disk (budgetArguments "r.json" .error 1 true)) := by
  have typed : ∀ a ∈ [Store.yearsEnd, Store.yearsEnd], a.Typed := by
    simpa using Store.yearsEnd_typed
  obtain ⟨p, w', saved, verdict⟩ :=
    saved_report_verdict Store.bare_writable (by decide) typed
  have strict := (verdict noon .error 0 true).1 yearsEnds_tellable (Store.isShort_of_digit (by decide))
  have lenient := (verdict noon .error 1 true).1 yearsEnds_tellable (Store.isShort_of_digit (by decide))
  refine ⟨p, w', saved, ?_, lenient.passes_iff.mpr ?_⟩
  · rw [strict.passes_iff, not_not]
    exact .inl (by decide)
  · rintro (many | ⟨-, failed⟩)
    · exact absurd many (by decide)
    · cases failed

theorem not_isShort_tooLong : ¬ IsShort (10 ^ Json.digitLimit) := by
  simp [IsShort, Int.natAbs_pow]

/-- A budget of one digit more than can be read is refused, whatever the report. -/
theorem not_every_saved_report_is_judged :
    ¬ ∀ (w : World) (path : String) (as : List Analysis), w.disk.Writable (Path.ofText path) →
        path.toList.head? ≠ some '-' → (∀ a ∈ as, a.Typed) →
        ∃ p w', (Store.saveAll as path).outcome w = (.ok p, w') ∧
          ∀ (stamp : Stamp) (t : Severity) (m : Int) (allow : Bool),
            Judges (Fails as t m allow) (run stamp w'.disk (budgetArguments path t m allow)) := by
  intro claim
  obtain ⟨p, w', -, judged⟩ := claim (World.bare .default) "r.json" [] Store.bare_writable
    (by decide) (by simp)
  obtain ⟨m, long⟩ : ∃ m : Int, ¬ IsShort m := ⟨10 ^ Json.digitLimit, not_isShort_tooLong⟩
  obtain ⟨out, ran, verdict⟩ := judged noon .error m false
  obtain ⟨text, refused⟩ : ∃ text, run noon w'.disk (budgetArguments "r.json" .error m false) =
      .ok ⟨2, "", text⟩ := run_long rfl long
  cases ran.symm.trans refused
  rcases verdict with ⟨exit, -⟩ | ⟨exit, -⟩ <;> cases exit

end Gate

end LintHub
