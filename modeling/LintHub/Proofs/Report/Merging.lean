import LintHub.Proofs.Report.Distinct
import LintHub.Report.Comparison
import LintHub.Report.Statistics
import Mathlib.Algebra.Order.Ring.Int

/-! # When there is a report

Merging adds up times and compares keys. Both may fail: a sum is no span on the way, or a list or an
object stands where a key is asked for. A report is there exactly if what it needs of this is there.
-/

namespace LintHub

open Time

/-! ## Times -/

/-- A number of microseconds that is a span. -/
def Time.IsSpan (micros : Int) : Prop :=
  -maxDays ≤ micros / microsPerDay ∧ micros / microsPerDay ≤ maxDays

theorem Time.Span.isSpan (s : Span) : IsSpan s.micros := s.bounded

theorem Time.Span.eq_of_micros {s t : Span} (h : s.micros = t.micros) : s = t := by
  cases s
  cases t
  cases h
  rfl

theorem ofMicros_eq_ok_iff {micros : Int} {s : Span} :
    Span.ofMicros micros = .ok s ↔ s.micros = micros := by
  constructor
  · exact Span.micros_ofMicros
  · rintro rfl
    exact dif_pos s.bounded

/-- Adding up stays within spans at each step. -/
def SumsFit (start : Int) (spans : List Span) : Prop :=
  ∀ n, IsSpan (start + ((spans.take n).map (·.micros)).sum)

theorem sumsFit_nil (s : Span) : SumsFit s.micros [] := by
  intro n
  simpa using s.isSpan

theorem sumsFit_cons {s t : Span} {spans : List Span} :
    SumsFit s.micros (t :: spans) ↔
      IsSpan (s.micros + t.micros) ∧ SumsFit (s.micros + t.micros) spans := by
  constructor
  · intro h
    exact ⟨by simpa using h 1, fun n => by simpa [add_assoc] using h (n + 1)⟩
  · rintro ⟨-, h⟩ n
    cases n with
    | zero => simpa using s.isSpan
    | succ n => simpa [add_assoc] using h n

theorem sumSpans_cons (start s : Span) (spans : List Span) :
    sumSpans start (s :: spans) =
      (start.add s).mapError .span >>= fun sum => sumSpans sum spans :=
  List.foldlM_cons ..

/-- By induction on the spans: each step keeps the sum so far. -/
theorem sumSpans_eq_ok_iff {start t : Span} {spans : List Span} :
    sumSpans start spans = .ok t ↔
      SumsFit start.micros spans ∧ t.micros = start.micros + (spans.map (·.micros)).sum := by
  induction spans generalizing start with
  | nil =>
    rw [show sumSpans start [] = .ok start from rfl, List.map_nil, List.sum_nil, add_zero]
    constructor
    · rintro ⟨⟩
      exact ⟨sumsFit_nil _, rfl⟩
    · rintro ⟨-, h⟩
      rw [Span.eq_of_micros h]
  | cons s spans ih =>
    rw [sumSpans_cons, bind_ok_iff, sumsFit_cons, List.map_cons, List.sum_cons, ← add_assoc]
    simp only [mapError_ok_iff, Span.add, ofMicros_eq_ok_iff, ih]
    constructor
    · rintro ⟨sum, same, fit, total⟩
      rw [← same]
      exact ⟨⟨sum.isSpan, fit⟩, total⟩
    · rintro ⟨⟨span, fit⟩, total⟩
      exact ⟨⟨_, span⟩, rfl, fit, total⟩

/-- The times of the analyses can be added up. -/
def TimesFit (as : List Analysis) : Prop :=
  SumsFit 0 (as.map (·.executionTime))

theorem sum_times_ok_iff {as : List Analysis} :
    (∃ t, sumSpans Span.zero (as.map (·.executionTime)) = .ok t) ↔ TimesFit as := by
  simp only [sumSpans_eq_ok_iff]
  constructor
  · rintro ⟨t, fit, -⟩
    exact fit
  · intro fit
    have whole := fit (as.map (·.executionTime)).length
    rw [List.take_length] at whole
    exact ⟨⟨_, whole⟩, fit, rfl⟩

theorem sum_times {as : List Analysis} {t : Span}
    (added : sumSpans Span.zero (as.map (·.executionTime)) = .ok t) :
    t.micros = (as.map (·.executionTime.micros)).sum := by
  have total := (sumSpans_eq_ok_iff.mp added).2
  rw [List.map_map] at total
  exact total.trans (Int.zero_add _)

/-! ## Merging -/

/-- Analyses that can be merged. -/
structure Mergeable (as : List Analysis) : Prop where
  times : TimesFit as
  keys : ∀ i ∈ as.flatMap (·.issues), i.Keyed

/-- The analyses in one, from the sum of their times and their issues with keys. -/
def merged (stamp : Stamp) (as : List Analysis) (time : Span) (es : Keyed) : Analysis :=
  { Analysis.new stamp (.str aggregatedName) with
    issues := (firstByKey [] es).map (·.2)
    executionTime := time
    filesAnalyzed := as.foldr (fun a count => a.filesAnalyzed + count) 0
    success := (failureTexts as).isEmpty
    errorMessage := .str (String.intercalate "; " (failureTexts as)) }

theorem aggregate_eq_ok_iff {stamp : Stamp} {as : List Analysis} {m : Analysis} :
    aggregate stamp as = .ok m ↔
      ∃ time es, sumSpans Span.zero (as.map (·.executionTime)) = .ok time ∧
        withKeys (as.flatMap (·.issues)) = .ok es ∧ m = merged stamp as time es := by
  unfold aggregate distinctIssues distinctKeyed
  simp only [bind_ok_iff, map_ok_iff]
  constructor
  · rintro ⟨time, added, _, ⟨_, ⟨es, keyed, rfl⟩, rfl⟩, h⟩
    cases h
    exact ⟨time, es, added, keyed, rfl⟩
  · rintro ⟨time, es, added, keyed, rfl⟩
    exact ⟨time, added, _, ⟨_, ⟨es, keyed, rfl⟩, rfl⟩, rfl⟩

theorem aggregate_ok_iff (stamp : Stamp) {as : List Analysis} :
    (∃ m, aggregate stamp as = .ok m) ↔ Mergeable as := by
  simp only [aggregate_eq_ok_iff]
  constructor
  · rintro ⟨-, time, es, added, keyed, -⟩
    exact ⟨sum_times_ok_iff.mp ⟨time, added⟩, withKeys_ok_iff.mp ⟨es, keyed⟩⟩
  · rintro ⟨times, keys⟩
    obtain ⟨time, added⟩ := sum_times_ok_iff.mpr times
    obtain ⟨es, keyed⟩ := withKeys_ok_iff.mpr keys
    exact ⟨_, time, es, added, keyed, rfl⟩

/-- What stays when repeats are dropped keeps its keys. -/
theorem merged_keys {stamp : Stamp} {as : List Analysis} {time : Span} {es : Keyed}
    (keyed : withKeys (as.flatMap (·.issues)) = .ok es) :
    withKeys (merged stamp as time es).issues = .ok (firstByKey [] es) := by
  have own := (withKeys_eq_ok_iff.mp keyed).2
  refine withKeys_eq_ok_iff.mpr ⟨rfl, fun e he => ?_⟩
  exact own e ((firstByKey_sublist [] es).subset he)

/-- Analyses whose times can be added up are merged unless keys are missing. -/
theorem aggregate_of_fit {as : List Analysis} (fit : TimesFit as) :
    ∃ time : Span, time.micros = (as.map (·.executionTime.micros)).sum ∧
      ∀ stamp, aggregate stamp as =
        (withKeys (as.flatMap (·.issues))).map (merged stamp as time) := by
  obtain ⟨time, added⟩ := sum_times_ok_iff.mpr fit
  refine ⟨time, sum_times added, fun stamp => ?_⟩
  unfold aggregate
  rw [added]
  cases keyed : withKeys (as.flatMap (·.issues)) <;>
    simp [distinctIssues, distinctKeyed, keyed, bind, Except.bind, Except.map, merged, pure,
      Except.pure]

/-! ## Comparing -/

theorem compare_ok_iff (stamp : Stamp) {baseline current : List Analysis} :
    (∃ c, compare stamp baseline current = .ok c) ↔ Mergeable baseline ∧ Mergeable current := by
  unfold compare
  simp only [bind_ok_iff, ← aggregate_ok_iff stamp]
  constructor
  · rintro ⟨-, before, hb, after, ha, -⟩
    exact ⟨⟨before, hb⟩, after, ha⟩
  · rintro ⟨⟨before, hb⟩, after, ha⟩
    obtain ⟨_, es, -, keyed, rfl⟩ := aggregate_eq_ok_iff.mp hb
    obtain ⟨_, fs, -, keyed', rfl⟩ := aggregate_eq_ok_iff.mp ha
    exact ⟨_, _, hb, _, ha, _, merged_keys keyed, _, merged_keys keyed', rfl⟩

/-- Of sides whose times can be added up, a comparison looks at the issues without repeats only. -/
theorem compare_of_fit {baseline current : List Analysis} (before : TimesFit baseline)
    (after : TimesFit current) (stamp : Stamp) :
    compare stamp baseline current = do
      let b ← distinctKeyed (baseline.flatMap (·.issues))
      let c ← distinctKeyed (current.flatMap (·.issues))
      return Comparison.ofKeyed b c := by
  obtain ⟨_, -, made⟩ := aggregate_of_fit before
  obtain ⟨_, -, made'⟩ := aggregate_of_fit after
  unfold compare distinctKeyed
  rw [made, made']
  cases keyed : withKeys (baseline.flatMap (·.issues)) with
  | error f => rfl
  | ok es =>
    cases keyed' : withKeys (current.flatMap (·.issues)) with
    | error f => rfl
    | ok fs => simp [bind, Except.bind, Except.map, merged_keys keyed, merged_keys keyed']

/-! ## Counting -/

theorem fileRanking_ok_iff {as : List Analysis} :
    (∃ r, fileRanking as = .ok r) ↔ ∀ i ∈ as.flatMap (·.issues), i.filePath.IsKey := by
  simp only [← toScalar_ok_iff, ← mapM_ok_iff, fileRanking, bind_ok_iff]
  constructor
  · rintro ⟨-, files, h, -⟩
    exact ⟨files, h⟩
  · rintro ⟨files, h⟩
    exact ⟨_, files, h, rfl⟩

theorem worstFiles_ok_iff {as : List Analysis} {n : Int} :
    (∃ r, worstFiles as (.int n) = .ok r) ↔ ∀ i ∈ as.flatMap (·.issues), i.filePath.IsKey := by
  rw [← fileRanking_ok_iff]
  unfold worstFiles
  simp only [bind_ok_iff]
  constructor
  · rintro ⟨-, ranking, h, -⟩
    exact ⟨ranking, h⟩
  · rintro ⟨ranking, h⟩
    exact ⟨_, ranking, h, _, rfl, rfl⟩

theorem addRun_eq_ok_iff {sums sums' : Span × Tally Scalar} {a : Analysis} :
    addRun sums a = .ok sums' ↔
      ∃ time tool, (sums.1.add a.executionTime).mapError Fault.span = .ok time ∧
        a.toolName.toScalar = .ok tool ∧
        sums' = (time, Tally.add Scalar.identity sums.2 tool a.issues.length) := by
  unfold addRun
  simp only [bind_ok_iff]
  constructor
  · rintro ⟨time, added, tool, named, h⟩
    cases h
    exact ⟨time, tool, added, named, rfl⟩
  · rintro ⟨time, tool, added, named, rfl⟩
    exact ⟨time, added, tool, named, rfl⟩

/-- By induction on the analyses: the tools of those before do not matter. -/
theorem addRuns_ok_iff {as : List Analysis} {time : Span} (perTool : Tally Scalar) :
    (∃ r, as.foldlM addRun (time, perTool) = .ok r) ↔
      (∃ t, sumSpans time (as.map (·.executionTime)) = .ok t) ∧ ∀ a ∈ as, a.toolName.IsKey := by
  induction as generalizing time perTool with
  | nil => exact ⟨fun _ => ⟨⟨time, rfl⟩, fun a h => (nomatch h)⟩, fun _ => ⟨_, rfl⟩⟩
  | cons a as ih =>
    rw [List.foldlM_cons, List.map_cons, sumSpans_cons, List.forall_mem_cons, ← toScalar_ok_iff]
    simp only [bind_ok_iff, addRun_eq_ok_iff]
    constructor
    · rintro ⟨r, _, ⟨sum, tool, added, named, rfl⟩, rest⟩
      obtain ⟨⟨t, total⟩, tools⟩ := (ih _).mp ⟨r, rest⟩
      exact ⟨⟨t, sum, added, total⟩, ⟨tool, named⟩, tools⟩
    · rintro ⟨⟨t, sum, added, total⟩, ⟨tool, named⟩, tools⟩
      obtain ⟨r, rest⟩ := (ih _).mpr ⟨⟨t, total⟩, tools⟩
      exact ⟨r, _, ⟨sum, tool, added, named, rfl⟩, rest⟩

/-- Analyses that can be counted. -/
structure Countable (as : List Analysis) : Prop where
  times : TimesFit as
  tools : ∀ a ∈ as, a.toolName.IsKey
  files : ∀ i ∈ as.flatMap (·.issues), i.filePath.IsKey

theorem statistics_ok_iff {as : List Analysis} {n : Int} :
    (∃ s, statistics as (.int n) = .ok s) ↔ Countable as := by
  unfold statistics
  simp only [bind_ok_iff]
  constructor
  · rintro ⟨-, r, runs, worst, ranked, -⟩
    obtain ⟨total, tools⟩ := (addRuns_ok_iff []).mp ⟨r, runs⟩
    exact ⟨sum_times_ok_iff.mp total, tools, worstFiles_ok_iff.mp ⟨worst, ranked⟩⟩
  · rintro ⟨times, tools, files⟩
    obtain ⟨r, runs⟩ := (addRuns_ok_iff []).mpr ⟨sum_times_ok_iff.mpr times, tools⟩
    obtain ⟨worst, ranked⟩ := (worstFiles_ok_iff (n := n)).mpr files
    exact ⟨_, r, runs, worst, ranked, rfl⟩

/-! ## Faults -/

/-- What goes wrong when there is no report: a sum that is no span, or a value that is no key. -/
inductive Fault.Unreported : Fault → Prop where
  | span (e : SpanError) : Unreported (.span e)
  | key (kind : ValueKind) : Unreported (.notHashable kind)

open Fault (Unreported)

theorem toScalar_unreported (v : Json) : Faults Unreported v.toScalar := by
  unfold Json.toScalar
  split
  · exact .ok _
  · exact .error (.key _)

theorem key_unreported (i : Issue) : Faults Unreported i.key :=
  .bind (toScalar_unreported _) fun _ => .bind (toScalar_unreported _) fun _ => .pure _

theorem withKeys_unreported (is : List Issue) : Faults Unreported (withKeys is) :=
  .mapM fun i => .map (key_unreported i)

theorem aggregate_unreported (stamp : Stamp) (as : List Analysis) :
    Faults Unreported (aggregate stamp as) :=
  .bind (.foldlM (fun _ _ => .mapError .span) _) fun _ =>
    .bind (.map (.map (withKeys_unreported _))) fun _ => .pure _

theorem compare_unreported (stamp : Stamp) (baseline current : List Analysis) :
    Faults Unreported (compare stamp baseline current) :=
  .bind (aggregate_unreported _ _) fun _ => .bind (aggregate_unreported _ _) fun _ =>
    .bind (withKeys_unreported _) fun _ => .bind (withKeys_unreported _) fun _ => .pure _

theorem worstFiles_unreported (as : List Analysis) (n : Int) :
    Faults Unreported (worstFiles as (.int n)) :=
  .bind (.bind (.mapM fun _ => toScalar_unreported _) fun _ => .pure _) fun _ =>
    .bind (.ok _) fun _ => .pure _

theorem addRun_unreported (sums : Span × Tally Scalar) (a : Analysis) :
    Faults Unreported (addRun sums a) :=
  .bind (.mapError .span) fun _ => .bind (toScalar_unreported _) fun _ => .pure _

theorem statistics_unreported (as : List Analysis) (n : Int) :
    Faults Unreported (statistics as (.int n)) :=
  .bind (.foldlM addRun_unreported _) fun _ => .bind (worstFiles_unreported _ _) fun _ => .pure _

end LintHub
