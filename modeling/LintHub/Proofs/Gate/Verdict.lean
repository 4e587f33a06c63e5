import LintHub.Gate.Verdict
import LintHub.Proofs.Gate.Arguments
import LintHub.Proofs.Json.Grammar
import LintHub.Proofs.Report.Merging
import LintHub.Proofs.Store.RoundTrip
import Mathlib.Data.List.Perm.Subperm

/-! # What fails at the gate

The gate counts issues after repeats were dropped, so that of the issues with one key the first one
decides. A report fails if more keys than the budget allows have a first issue of the chosen severity
or above.
-/

namespace LintHub.Gate

/-- How many files the analyses looked at. -/
def fileTotal (as : List Analysis) : Int :=
  as.foldr (fun a count => a.filesAnalyzed + count) 0

/-- A report that the gate comes to a verdict on: its analyses, and their issues with keys. -/
structure Judged (stamp : Stamp) (disk : Disk) (report : String) (as : List Analysis) (es : Keyed) :
    Prop where
  path : classify report = .ok .positional
  loads : Store.analysesOf stamp.time report (disk.readBytes (.ofText report)) = .ok as
  times : TimesFit as
  keys : withKeys (as.flatMap (·.issues)) = .ok es
  files : (Text.natText (fileTotal as).natAbs).length ≤ Json.digitLimit

/-- A report that is made of whole characters besides: its text escapes no half of one alone. -/
structure Legible (stamp : Stamp) (disk : Disk) (report : String) (as : List Analysis) (es : Keyed) :
    Prop extends Judged stamp disk report as es where
  paired : ∀ s, Store.textOf (disk.readBytes (.ofText report)) = .ok s →
    Json.halvesPaired s.toList = true

/-- The text of such a report stands for the document that its analyses are loaded from. -/
theorem Legible.stands {stamp : Stamp} {disk : Disk} {report : String} {as : List Analysis}
    {es : Keyed} (legible : Legible stamp disk report as es) :
    ∃ s doc cs rest, Store.textOf (disk.readBytes (.ofText report)) = .ok s ∧
      Store.documentOf report (disk.readBytes (.ofText report)) = .ok doc ∧
      Json.Space s.toList cs ∧ Json.StandsFor cs doc rest ∧ Json.Space rest [] := by
  obtain ⟨doc, made, -⟩ := bind_ok_iff.mp legible.loads
  obtain ⟨s, text, read⟩ := Store.documentOf_ok made
  obtain ⟨cs, rest, before, stands, behind⟩ := Json.read_stands read (legible.paired s text)
  exact ⟨s, doc, cs, rest, text, made, before, stands, behind⟩

/-- The issues that count: of those that are first with their key, the ones of a severity or above. -/
def counted (t : Severity) (es : Keyed) : Keyed :=
  (firstByKey [] es).filter fun e => t ≤ e.2.severity

theorem mem_counted {t : Severity} {es : Keyed} {k : IssueKey} {i : Issue} :
    (k, i) ∈ counted t es ↔ es.lookup k = some i ∧ t ≤ i.severity := by
  unfold counted
  rw [List.mem_filter, mem_firstByKey, decide_eq_true_eq]
  simp

theorem blocking_merged {o : Options} {t : Severity} {stamp : Stamp} {as : List Analysis}
    {time : Time.Span} {es : Keyed} (chosen : o.failOn = t.label) :
    (blocking o (merged stamp as time es)).length = (counted t es).length := by
  unfold blocking counted Analysis.issuesAtLeast merged
  rw [chosen, Severity.ofText?_label, List.filter_map, List.length_map]
  rfl

theorem verdict_ok {o : Options} {m : Analysis}
    (files : (Text.natText m.filesAnalyzed.natAbs).length ≤ Json.digitLimit) :
    ∃ text, verdict o m = .ok ⟨if isFailed o m then 1 else 0, text, ""⟩ := by
  unfold verdict verdictLines numberText
  rw [if_neg (Nat.not_lt.mpr files)]
  exact ⟨_, rfl⟩

/-- The verdict on a report: it fails if too many issues count, or if a tool failed. -/
theorem run_judged {stamp : Stamp} {disk : Disk} {report : String} {as : List Analysis} {es : Keyed}
    (t : Severity) {m : Int} (allow : Bool) (judged : Judged stamp disk report as es)
    (short : (Text.natText m.natAbs).length ≤ Json.digitLimit) :
    ∃ text, run stamp disk (budgetArguments report t m allow) = .ok
      ⟨if m < (counted t es).length ∨ failureTexts as ≠ [] ∧ allow = false then 1 else 0, text, ""⟩ := by
  obtain ⟨time, added⟩ := sum_times_ok_iff.mpr judged.times
  have made : aggregate stamp as = .ok (merged stamp as time es) :=
    aggregate_eq_ok_iff.mpr ⟨time, es, added, judged.keys, rfl⟩
  obtain ⟨text, told⟩ := verdict_ok (o := ⟨report, t.label, m, allow⟩)
    (m := merged stamp as time es) judged.files
  refine ⟨text, ?_⟩
  have failed : isFailed ⟨report, t.label, m, allow⟩ (merged stamp as time es) =
      decide (m < (counted t es).length ∨ failureTexts as ≠ [] ∧ allow = false) := by
    unfold isFailed
    rw [blocking_merged rfl, Bool.decide_or, Bool.decide_and]
    cases texts : failureTexts as <;> simp [merged, texts]
  unfold run
  rw [ofArguments_budget judged.path short]
  dsimp only
  have loaded : Store.analysesOf stamp.time report (disk.readBytes (.ofText report)) >>=
      aggregate stamp = .ok (merged stamp as time es) := bind_ok_iff.mpr ⟨as, judged.loads, made⟩
  unfold judge
  rw [loaded]
  dsimp only
  rw [told, failed]
  simp

/-- By counting: each blocked key has its own issue among those that count. -/
theorem length_le_counted {t : Severity} {es : Keyed} {blocked : List IssueKey}
    (distinct : blocked.Nodup) (first : ∀ k ∈ blocked, ∃ i, es.lookup k = some i ∧ t ≤ i.severity) :
    blocked.length ≤ (counted t es).length := by
  have among : blocked ⊆ (counted t es).map (·.1) := by
    intro k hk
    obtain ⟨i, found, high⟩ := first k hk
    exact List.mem_map.mpr ⟨(k, i), mem_counted.mpr ⟨found, high⟩, rfl⟩
  simpa using (List.subperm_of_subset distinct among).length_le

/-- A report fails if the first issues of more keys than the budget allows are of the chosen severity
or above. -/
theorem blocked_report_fails {stamp : Stamp} {disk : Disk} {report : String} {as : List Analysis}
    {es : Keyed} {t : Severity} {m : Int} {blocked : List IssueKey}
    (legible : Legible stamp disk report as es)
    (short : (Text.natText m.natAbs).length ≤ Json.digitLimit) (distinct : blocked.Nodup)
    (first : ∀ k ∈ blocked, ∃ i, es.lookup k = some i ∧ t ≤ i.severity)
    (more : m < blocked.length) :
    ∃ out, run stamp disk [report, "--fail-on", t.label, "--max-issues", Text.intText m] = .ok out ∧
      out.exit = 1 := by
  obtain ⟨text, ran⟩ := run_judged t false legible.toJudged short
  have most := length_le_counted distinct first
  refine ⟨_, ran, if_pos (.inl ?_)⟩
  omega

/-! ## Two issues with one key -/

/-- A report with two issues of one key. -/
def twice (first second : Severity) : Json :=
  .arr [.obj [("issues",
    .arr [.obj [("severity", .str first.label)], .obj [("severity", .str second.label)]])]]

theorem twice_plain (first second : Severity) : (twice first second).Plain := by
  simp [twice, Json.Plain, Json.PlainItems, Json.PlainFields, Fields.names]

def twiceDisk (first second : Severity) : Disk :=
  ⟨[(["r.json"], .file (Text.encodeUtf8 ((twice first second).writeIndented 0)) false)], []⟩

/-- The issue of a document that gives a severity only. -/
def bareIssue (s : Severity) : Issue :=
  ⟨.str "", .str "", .str "", 0, 0, s, .style, .str "", .str "", none⟩

def bareKey : IssueKey := ⟨.str "", 0, .str ""⟩

def noon : Stamp := ⟨"analysis", ⟨⟨2024, 1, 2⟩, 12, 0, 0, 0, 0⟩⟩

def twiceAnalysis (first second : Severity) : Analysis :=
  { Analysis.new noon (.str "") with id := .str "", issues := [bareIssue first, bareIssue second] }

theorem twice_bytes (first second : Severity) :
    (twiceDisk first second).readBytes (.ofText "r.json") =
      .ok (Text.encodeUtf8 ((twice first second).writeIndented 0)) :=
  Disk.readBytes_name (by decide) rfl

theorem twice_legible (first second : Severity) :
    Legible noon (twiceDisk first second) "r.json" [twiceAnalysis first second]
      [(bareKey, bareIssue first), (bareKey, bareIssue second)] where
  path := rfl
  loads := by
    rw [twice_bytes, Store.analysesOf, Store.documentOf_encoded (twice_plain first second) (.inl rfl)]
    cases first <;> cases second <;> rfl
  times := sum_times_ok_iff.mp ⟨Time.Span.zero, rfl⟩
  keys := rfl
  files := show (Text.natText (0 : Int).natAbs).length ≤ Json.digitLimit by decide
  paired s text := by
    rw [twice_bytes, Store.textOf_encoded (Json.isLined_indented 0 _)] at text
    cases text
    exact Json.halvesPaired_writeIndented _

theorem blocked_report_fails_twice :
    ∃ out, run noon (twiceDisk .critical .info)
      ["r.json", "--fail-on", Severity.critical.label, "--max-issues", Text.intText 0] = .ok out ∧
      out.exit = 1 := by
  refine blocked_report_fails (twice_legible .critical .info) (by decide) (List.nodup_singleton bareKey)
    (fun k hk => ?_) (by decide)
  rw [List.mem_singleton.mp hk]
  exact ⟨bareIssue .critical, rfl, by decide⟩

/-- An issue of the chosen severity does not count if another one with its key stands before it. -/
theorem not_every_blocked_report_fails :
    ¬ ∀ (stamp : Stamp) (disk : Disk) (report : String) (as : List Analysis) (es : Keyed)
        (t : Severity) (m : Int) (blocked : List IssueKey),
        Legible stamp disk report as es →
        (Text.natText m.natAbs).length ≤ Json.digitLimit → blocked.Nodup →
        (∀ k ∈ blocked, ∃ i, (k, i) ∈ es ∧ t ≤ i.severity) → m < blocked.length →
        ∃ out, run stamp disk [report, "--fail-on", t.label, "--max-issues", Text.intText m] =
          .ok out ∧ out.exit = 1 := by
  intro claim
  have legible := twice_legible .info .critical
  obtain ⟨out, ran, fails⟩ := claim _ _ _ _ _ .critical 0 [bareKey] legible (by decide) (by decide)
    (fun k hk => ⟨bareIssue .critical, by rw [List.mem_singleton.mp hk]; simp, by decide⟩) (by decide)
  obtain ⟨text, passes⟩ := run_judged (m := 0) .critical false legible.toJudged (by decide)
  cases ran.symm.trans passes
  cases fails

end LintHub.Gate
