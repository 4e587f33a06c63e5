import Mathlib.Data.List.Nodup
import LintHub.Analysis
import LintHub.Proofs.Json.Document
import LintHub.Proofs.Number.Millis
import LintHub.Proofs.Time.Plain
import LintHub.Proofs.Work.Faults

/-! # Documents of analyses

An analysis whose fields have their declared types is described by a document, and the document
describes the same analysis again, up to the precision of its time and its duration.
-/

namespace LintHub

open Time

/-- A text. -/
def Json.IsText (v : Json) : Prop :=
  ∃ s, v = .str s

/-- Few enough digits to be written. -/
def IsShort (i : Int) : Prop :=
  i.natAbs < 10 ^ Json.digitLimit

/-- The declared types of an issue's fields. -/
structure Issue.Typed (i : Issue) : Prop where
  id : i.id.IsText
  message : i.message.IsText
  filePath : i.filePath.IsText
  line : IsShort i.line
  column : IsShort i.column
  ruleId : i.ruleId.IsText
  toolName : i.toolName.IsText
  fixSuggestion : ∀ v, i.fixSuggestion = some v → v.IsText

/-- The declared types of an analysis' fields. Its time lies in the years 1000 to 9999 in UTC and its
duration below a hundred years. -/
structure Analysis.Typed (a : Analysis) : Prop where
  toolName : a.toolName.IsText
  id : a.id.IsText
  timestamp : a.timestamp.Valid
  utc : ∃ u, a.timestamp.toUtc = .ok u ∧ 1000 ≤ u.date.year
  issues : ∀ i ∈ a.issues, i.Typed
  /-- The counts of the issues are written too. -/
  issueCount : a.issues.length < 10 ^ Json.digitLimit
  filesAnalyzed : IsShort a.filesAnalyzed
  executionTime : 0 ≤ a.executionTime.micros ∧ a.executionTime.micros < Span.centuryMicros
  errorMessage : a.errorMessage.IsText

/-- The fields of an issue as reading leaves them: none of them counts as not given, unless it is an
empty text. -/
structure Issue.Settled (i : Issue) : Prop where
  id : i.id.orElse (.str "") = i.id
  message : i.message.orElse (.str "") = i.message
  filePath : i.filePath.orElse (.str "") = i.filePath
  ruleId : i.ruleId.orElse (.str "") = i.ruleId
  toolName : i.toolName.orElse (.str "") = i.toolName
  fixSuggestion : i.fixSuggestion ≠ some .null

/-- The fields of an analysis as reading leaves them. -/
structure Analysis.Settled (a : Analysis) : Prop where
  toolName : a.toolName.orElse (.str "") = a.toolName
  id : a.id.orElse (.str "") = a.id
  issues : ∀ i ∈ a.issues, i.Settled

/-! ## Fields -/

theorem Json.orElse_orElse (v fallback : Json) :
    (v.orElse fallback).orElse fallback = v.orElse fallback := by
  by_cases blank : v.isBlank
  · have taken : v.orElse fallback = fallback := if_pos blank
    rw [taken]
    exact ite_self _
  · have kept : v.orElse fallback = v := if_neg blank
    rw [kept, kept]

theorem Json.IsText.plain {v : Json} (h : v.IsText) : v.Plain := by
  obtain ⟨s, rfl⟩ := h
  trivial

theorem Json.orElse_text (s : String) : (Json.str s).orElse (.str "") = .str s := by
  by_cases empty : s = ""
  · rw [empty]
    rfl
  · exact if_neg (by simpa [Json.isBlank] using empty)

theorem Json.IsText.orElse {v : Json} (h : v.IsText) : v.orElse (.str "") = v := by
  obtain ⟨s, rfl⟩ := h
  exact orElse_text s

theorem Json.orElse_int (i : Int) : (Json.int i).orElse (.int 0) = .int i := by
  by_cases zero : i = 0
  · rw [zero]
    rfl
  · exact if_neg (by simpa [Json.isBlank] using zero)

theorem Json.orElse_arr (vs : List Json) : (Json.arr vs).orElse (.arr []) = .arr vs := by
  cases vs <;> rfl

theorem Json.orElse_obj (fields : Fields) : (Json.obj fields).orElse (.obj []) = .obj fields := by
  cases fields <;> rfl

theorem Severity.label_injective : Function.Injective label := by
  intro s t
  cases s <;> cases t <;> simp [label]

theorem Category.label_injective : Function.Injective label := by
  intro s t
  cases s <;> cases t <;> simp [label]

theorem Severity.ofText?_label (s : Severity) : ofText? s.label = some s := by
  cases s <;> decide +kernel

theorem Severity.ofJson_label (s : Severity) : ofJson (.str s.label) = .ok s := by
  have given : (Json.str s.label).isBlank = false := by cases s <;> rfl
  rw [ofJson, given]
  show Except.ok ((ofText? s.label).getD warning) = _
  rw [ofText?_label]
  rfl

theorem Category.ofText?_label (c : Category) : ofText? c.label = some c := by
  cases c <;> decide +kernel

theorem Category.ofJson_label (c : Category) : ofJson (.str c.label) = .ok c := by
  have given : (Json.str c.label).isBlank = false := by cases c <;> rfl
  rw [ofJson, given]
  show Except.ok ((ofText? c.label).getD style) = _
  rw [ofText?_label]
  rfl

/-! ## Issues -/

namespace Issue

theorem Typed.plain {i : Issue} (h : i.Typed) : i.toJson.Plain := by
  unfold toJson
  cases fix : i.fixSuggestion with
  | none =>
    refine ⟨?_, h.id.plain, h.message.plain, h.filePath.plain, h.line, h.column, trivial, trivial,
      h.ruleId.plain, h.toolName.plain, trivial⟩
    show List.Nodup ["id", "message", "file_path", "line_number", "column_number", "severity",
      "category", "rule_id", "tool_name"]
    decide
  | some v =>
    refine ⟨?_, h.id.plain, h.message.plain, h.filePath.plain, h.line, h.column, trivial, trivial,
      h.ruleId.plain, h.toolName.plain, (h.fixSuggestion v fix).plain, trivial⟩
    show List.Nodup ["id", "message", "file_path", "line_number", "column_number", "severity",
      "category", "rule_id", "tool_name", "fix_suggestion"]
    decide

theorem Typed.settled {i : Issue} (h : i.Typed) : i.Settled where
  id := h.id.orElse
  message := h.message.orElse
  filePath := h.filePath.orElse
  ruleId := h.ruleId.orElse
  toolName := h.toolName.orElse
  fixSuggestion none := by
    obtain ⟨s, text⟩ := h.fixSuggestion .null none
    cases text

theorem ofJson_toJson {i : Issue} (h : i.Settled) : ofJson i.toJson = .ok i := by
  obtain ⟨id, message, filePath, line, column, severity, category, ruleId, toolName, fix⟩ := i
  obtain ⟨idKept, messageKept, fileKept, ruleKept, toolKept, given⟩ := h
  dsimp only at idKept messageKept fileKept ruleKept toolKept given
  unfold ofJson toJson
  cases fix with
  | none =>
    simp [Json.fieldsFor, bind, Except.bind, pure, Except.pure, Fields.valueOr, Fields.value,
      Fields.get?, List.lookup_cons, idKept, messageKept, fileKept, ruleKept, toolKept,
      Json.orElse_int, Json.toInt, Severity.ofJson_label, Category.ofJson_label]
  | some v =>
    cases v with
    | null => exact (given rfl).elim
    | _ =>
      simp [Json.fieldsFor, bind, Except.bind, pure, Except.pure, Fields.valueOr, Fields.value,
        Fields.get?, List.lookup_cons, idKept, messageKept, fileKept, ruleKept, toolKept,
        Json.orElse_int, Json.toInt, Severity.ofJson_label, Category.ofJson_label]

end Issue

/-! ## Counts -/

namespace Tally

variable {κ : Type} [DecidableEq κ]

theorem mem_add {t : Tally κ} {k : κ} {n : Int} {p : κ × Int} (h : p ∈ add (fun k => k) t k n) :
    p.1 = k ∨ p.1 ∈ t.map (·.1) := by
  induction t with
  | nil =>
    rw [add, List.mem_singleton] at h
    exact .inl (by rw [h])
  | cons q t ih =>
    rw [add] at h
    split at h
    · rcases List.mem_cons.mp h with rfl | h
      · exact .inr (List.mem_cons_self ..)
      · exact .inr (List.mem_cons_of_mem _ (List.mem_map_of_mem h))
    · rcases List.mem_cons.mp h with rfl | h
      · exact .inr (List.mem_cons_self ..)
      · rcases ih h with eq | mem
        · exact .inl eq
        · exact .inr (List.mem_cons_of_mem _ mem)

/-- Each key has one count, and no count is above the number of keys. -/
structure Counts (t : Tally κ) (total : Nat) : Prop where
  nodup : (t.map (·.1)).Nodup
  bounded : ∀ p ∈ t, 0 ≤ p.2 ∧ p.2 ≤ total

theorem Counts.add {t : Tally κ} {total : Nat} (h : Counts t total) (k : κ) :
    Counts (Tally.add (fun k => k) t k 1) (total + 1) := by
  induction t with
  | nil =>
    refine ⟨by simp [Tally.add], ?_⟩
    rw [Tally.add, List.forall_mem_singleton]
    dsimp only
    omega
  | cons q t ih =>
    obtain ⟨nodup, bounded⟩ := h
    rw [List.map_cons, List.nodup_cons] at nodup
    rw [List.forall_mem_cons] at bounded
    have rest := ih ⟨nodup.2, bounded.2⟩
    rw [Tally.add]
    split
    · refine ⟨by rw [List.map_cons, List.nodup_cons]; exact nodup, ?_⟩
      rw [List.forall_mem_cons]
      refine ⟨by dsimp only; omega, fun p hp => ?_⟩
      have := bounded.2 p hp
      omega
    · next other =>
      refine ⟨?_, ?_⟩
      · rw [List.map_cons, List.nodup_cons]
        refine ⟨fun mem => ?_, rest.nodup⟩
        obtain ⟨p, hp, eq⟩ := List.mem_map.mp mem
        rcases mem_add hp with same | old
        · exact other (eq.symm.trans same)
        · exact nodup.1 (eq ▸ old)
      · rw [List.forall_mem_cons]
        exact ⟨by dsimp only; omega, rest.bounded⟩

theorem counts_ofList (ks : List κ) : Counts (ofList (fun k => k) ks) ks.length := by
  have go (t : Tally κ) (total : Nat) (h : Counts t total) :
      Counts (ks.foldl (fun t k => Tally.add (fun k => k) t k 1) t) (total + ks.length) := by
    induction ks generalizing t total with
    | nil => exact h
    | cons k ks ih =>
      rw [List.foldl_cons, List.length_cons, ← Nat.add_assoc, Nat.add_right_comm]
      exact ih _ _ (h.add k)
  rw [← Nat.zero_add ks.length]
  exact go [] 0 ⟨by simp, by simp⟩

end Tally

namespace Analysis

theorem names_tallyJson {κ : Type} [DecidableEq κ] {label : κ → String}
    (apart : Function.Injective label) (ks : List κ) :
    (Fields.names ((Tally.ofList (fun k => k) ks).map fun p => (label p.1, Json.int p.2))).Nodup := by
  have names (t : Tally κ) : Fields.names (t.map fun p => (label p.1, Json.int p.2)) =
      (t.map (·.1)).map label := by simp [Fields.names]
  rw [names]
  exact List.Nodup.map apart (Tally.counts_ofList ks).nodup

theorem plain_tallyJson {κ : Type} [DecidableEq κ] {label : κ → String}
    (apart : Function.Injective label) {ks : List κ} (few : ks.length < 10 ^ Json.digitLimit) :
    (tallyJson label (Tally.ofList (fun k => k) ks)).Plain := by
  refine ⟨names_tallyJson apart ks, ?_⟩
  have bounded := (Tally.counts_ofList ks).bounded
  generalize Tally.ofList (fun k => k) ks = t at bounded ⊢
  induction t with
  | nil => trivial
  | cons p t ih =>
    rw [List.forall_mem_cons] at bounded
    refine ⟨?_, ih bounded.2⟩
    show p.2.natAbs < 10 ^ Json.digitLimit
    omega

theorem bySeverity_plain {a : Analysis} (h : a.Typed) :
    (tallyJson Severity.label a.bySeverity).Plain := by
  exact plain_tallyJson Severity.label_injective (by rw [List.length_map]; exact h.issueCount)

theorem byCategory_plain {a : Analysis} (h : a.Typed) :
    (tallyJson Category.label a.byCategory).Plain := by
  exact plain_tallyJson Category.label_injective (by rw [List.length_map]; exact h.issueCount)

/-! ## Analyses -/

/-- What is left of an analysis when its document is read: the time in UTC to the second, the duration
to the millisecond, and a message wherever it failed. -/
structure Restores (a b : Analysis) : Prop where
  toolName : b.toolName = a.toolName
  id : b.id = a.id
  success : b.success = a.success
  filesAnalyzed : b.filesAnalyzed = a.filesAnalyzed
  issues : b.issues = a.issues
  errorMessage : a.success = true ∨ a.errorMessage ≠ .str "" → b.errorMessage = a.errorMessage
  unexplained : a.success = false → a.errorMessage = .str "" → b.errorMessage = .str unknownFailure
  timestamp : b.timestamp.Valid
  utc : b.timestamp.offset = 0
  second : b.timestamp.utcMicros = a.timestamp.utcMicros / 1000000 * 1000000
  executionTime : b.executionTime.micros = a.executionTime.micros / 1000 * 1000

theorem Typed.toJson {a : Analysis} (h : a.Typed) : ∃ doc, a.toJson = .ok doc ∧ doc.Plain := by
  obtain ⟨u, utc, four⟩ := h.utc
  have millis := Span.millis_eq h.executionTime.1 h.executionTime.2
  have short : IsShort a.executionTime.millis := by
    have limit : (36525 * 86400000 : Nat) < 10 ^ Json.digitLimit :=
      Nat.lt_of_lt_of_le (by decide : _ < 10 ^ 13) (Nat.pow_le_pow_right (by decide) (by decide))
    obtain ⟨low, high⟩ := h.executionTime
    unfold Span.centuryMicros microsPerDay at high
    unfold IsShort
    rw [millis]
    omega
  have issues : ∀ docs, docs = a.issues.map Issue.toJson → Json.PlainItems docs := by
    rintro docs rfl
    rw [Json.plainItems_iff]
    intro v hv
    obtain ⟨i, hi, rfl⟩ := List.mem_map.mp hv
    exact (h.issues i hi).plain
  unfold Analysis.toJson Moment.text
  rw [utc]
  refine ⟨_, rfl, ?_, h.toolName.plain, h.id.plain, trivial, h.filesAnalyzed, short, trivial,
    h.errorMessage.plain, issues _ rfl, bySeverity_plain h, byCategory_plain h, trivial⟩
  show List.Nodup ["tool_name", "analysis_id", "timestamp", "files_analyzed", "execution_time_ms",
    "success", "error_message", "issues", "issue_counts_by_severity", "issue_counts_by_category"]
  decide

theorem mapM_ofJson {is : List Issue} (h : ∀ i ∈ is, i.Settled) :
    (is.map Issue.toJson).mapM Issue.ofJson = .ok is := by
  induction is with
  | nil => rfl
  | cons i is ih =>
    rw [List.forall_mem_cons] at h
    rw [List.map_cons, List.mapM_cons, Issue.ofJson_toJson h.1, ih h.2]
    rfl

theorem ofMillis_millis {s : Span} (h : 0 ≤ s.micros ∧ s.micros < Span.centuryMicros) :
    ∃ t, Span.ofMillis s.millis = .ok t ∧ t.micros = s.micros / 1000 * 1000 := by
  have bounded : -maxDays ≤ s.millis * 1000 / microsPerDay ∧
      s.millis * 1000 / microsPerDay ≤ maxDays := by
    obtain ⟨low, high⟩ := h
    rw [Span.millis_eq low high]
    unfold Span.centuryMicros microsPerDay at high
    unfold maxDays microsPerDay
    omega
  exact ⟨⟨_, bounded⟩, dif_pos bounded, congrArg (· * 1000) (Span.millis_eq h.1 h.2)⟩

/-- A text form is given, so that it is read. -/
theorem momentOf_text (now u : Moment) :
    momentOf now (.str u.utcText) = (Time.parse u.utcText).mapError .moment := by
  have given : (Json.str u.utcText).isBlank = false := by
    have some : u.utcText.toList ≠ [] := by
      rw [utcText_toList]
      simp
    simpa [Json.isBlank] using some
  rw [momentOf, if_neg (by rw [given]; decide)]

theorem momentOf_utcText {u : Moment} (now : Moment) (valid : u.Valid)
    (four : 1000 ≤ u.date.year) : momentOf now (.str u.utcText) = .ok u.onSecond := by
  rw [momentOf_text, parse_utcText valid four]
  rfl

/-- The document of an analysis is read as that analysis, its time to the second and its duration as
the document has it. -/
theorem ofJson_written {a : Analysis} {u : Moment} {t : Span} {doc : Json} (now : Moment)
    (h : a.Settled) (utc : a.timestamp.toUtc = .ok u) (valid : u.Valid) (four : 1000 ≤ u.date.year)
    (span : Span.ofMillis a.executionTime.millis = .ok t) (written : a.toJson = .ok doc) :
    ofJson now doc = .ok { a with
      timestamp := u.onSecond
      executionTime := t
      errorMessage := a.errorMessage.orElse (.str (if a.success then "" else unknownFailure)) } := by
  have time := momentOf_utcText now valid four
  have issues := mapM_ofJson h.issues
  have toolName := h.toolName
  have id := h.id
  unfold Analysis.toJson Moment.text at written
  rw [utc] at written
  cases written
  unfold Analysis.ofJson
  simp [Json.fieldsFor, bind, Except.bind, pure, Except.pure, Fields.valueOr, Fields.value,
    Fields.get?, List.lookup_cons, time, Json.orElse_arr, Json.items, issues, Json.orElse_int,
    Json.toInt, span, Except.mapError, toolName, id, Json.isBlank]

theorem Typed.settled {a : Analysis} (h : a.Typed) : a.Settled where
  toolName := h.toolName.orElse
  id := h.id.orElse
  issues i hi := (h.issues i hi).settled

theorem ofJson_toJson {a : Analysis} {doc : Json} (now : Moment) (h : a.Typed)
    (written : a.toJson = .ok doc) : ∃ b, ofJson now doc = .ok b ∧ Restores a b := by
  obtain ⟨u, utc, four⟩ := h.utc
  obtain ⟨valid, offset, same⟩ := Moment.toUtc_spec h.timestamp utc
  obtain ⟨t, span, micros⟩ := ofMillis_millis h.executionTime
  refine ⟨_, ofJson_written now h.settled utc valid four span written, rfl, rfl, rfl, rfl, rfl,
    fun told => ?_, fun failed none => ?_, valid.onSecond, rfl, ?_, micros⟩
  · obtain ⟨s, text⟩ := h.errorMessage
    dsimp only
    rw [text] at told ⊢
    by_cases empty : s = ""
    · rw [empty] at told ⊢
      rw [told.resolve_right fun ne => ne rfl]
      rfl
    · exact if_neg (by simpa [Json.isBlank] using empty)
  · dsimp only
    rw [failed, none]
    rfl
  · rw [Moment.utcMicros_onSecond valid offset, same]

end Analysis

end LintHub
