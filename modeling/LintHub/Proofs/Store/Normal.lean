import LintHub.Request
import LintHub.Proofs.Lists
import LintHub.Proofs.Report.Totals
import LintHub.Proofs.Store.Documents

/-! # Documents in normal form

Reading fills in what a document leaves out and brings numbers, names and texts into one form. What is
written of what was read is in that form: it is read as it stands and written as it was, its counts are
those of its issues, and a failure has a message.
-/

namespace LintHub

open Time

/-! ## What reading leaves -/

theorem Json.valueOr_settled (d : Fields) (name : String) (fallback : Json) :
    (d.valueOr name fallback).orElse fallback = d.valueOr name fallback :=
  orElse_orElse (d.value name) fallback

theorem Issue.settled_of_ofJson {v : Json} {i : Issue} (read : ofJson v = .ok i) : i.Settled := by
  obtain ⟨d, -, read⟩ := bind_ok_iff.mp read
  obtain ⟨line, -, read⟩ := bind_ok_iff.mp read
  obtain ⟨column, -, read⟩ := bind_ok_iff.mp read
  obtain ⟨severity, -, read⟩ := bind_ok_iff.mp read
  obtain ⟨category, -, read⟩ := bind_ok_iff.mp read
  cases read
  refine ⟨Json.valueOr_settled .., Json.valueOr_settled .., Json.valueOr_settled ..,
    Json.valueOr_settled .., Json.valueOr_settled .., ?_⟩
  dsimp only
  cases d.value "fix_suggestion" <;> simp

/-- What was made of the items of a list was made of one of them. -/
theorem exists_of_mapM {α β : Type} {f : α → Except Fault β} {xs : List α} {ys : List β} {y : β}
    (h : xs.mapM f = .ok ys) (mem : y ∈ ys) : ∃ x ∈ xs, f x = .ok y := by
  induction xs generalizing ys with
  | nil =>
    cases h
    cases mem
  | cons x xs ih =>
    rw [List.mapM_cons] at h
    obtain ⟨z, made, h⟩ := bind_ok_iff.mp h
    obtain ⟨zs, rest, h⟩ := bind_ok_iff.mp h
    cases h
    rcases List.mem_cons.mp mem with rfl | mem
    · exact ⟨x, List.mem_cons_self .., made⟩
    · obtain ⟨x', there, made'⟩ := ih rest mem
      exact ⟨x', List.mem_cons_of_mem _ there, made'⟩

namespace Analysis

theorem momentOf_valid {now t : Moment} {v : Json} (valid : now.Valid)
    (read : momentOf now v = .ok t) : t.Valid := by
  unfold momentOf at read
  split at read
  · cases read
    exact valid
  · split at read
    · exact valid_of_parse (mapError_ok_iff.mp read)
    · cases read

/-- An analysis that was read: its fields are settled, and its message is unless it failed, when a
message that is not given is filled in. -/
structure Read (now : Moment) (a : Analysis) : Prop where
  settled : a.Settled
  timestamp : now.Valid → a.timestamp.Valid
  message : a.errorMessage.orElse (.str (if a.success then "" else unknownFailure)) = a.errorMessage

theorem read_of_ofJson {now : Moment} {v : Json} {a : Analysis} (read : ofJson now v = .ok a) :
    a.Read now := by
  obtain ⟨d, -, read⟩ := bind_ok_iff.mp read
  obtain ⟨time, told, read⟩ := bind_ok_iff.mp read
  obtain ⟨vs, -, read⟩ := bind_ok_iff.mp read
  obtain ⟨is, found, read⟩ := bind_ok_iff.mp read
  obtain ⟨files, -, read⟩ := bind_ok_iff.mp read
  obtain ⟨millis, -, read⟩ := bind_ok_iff.mp read
  obtain ⟨span, -, read⟩ := bind_ok_iff.mp read
  cases read
  refine ⟨⟨Json.valueOr_settled .., Json.valueOr_settled .., fun i mem => ?_⟩,
    fun valid => momentOf_valid valid told, Json.valueOr_settled ..⟩
  obtain ⟨doc, -, made⟩ := exists_of_mapM found mem
  exact Issue.settled_of_ofJson made

theorem Read.explained {now : Moment} {a : Analysis} (h : a.Read now) (failed : a.success = false) :
    a.errorMessage.isBlank = false := by
  have message := h.message
  rw [failed] at message
  cases blank : a.errorMessage.isBlank with
  | false => rfl
  | true =>
    have filled : a.errorMessage.orElse (.str unknownFailure) = .str unknownFailure := if_pos blank
    rw [message.symm.trans filled] at blank
    cases blank

end Analysis

/-! ## Reading what was written -/

namespace Time.Span

/-- So many milliseconds are a span, and the span is of so many. -/
theorem ofMillis_small {n : Int} (small : n.natAbs ≤ 2 ^ 53) :
    ∃ s, ofMillis n = .ok s ∧ s.millis = n := by
  have bounded : -maxDays ≤ n * 1000 / microsPerDay ∧ n * 1000 / microsPerDay ≤ maxDays := by
    unfold maxDays microsPerDay
    omega
  exact ⟨⟨_, bounded⟩, dif_pos bounded, millis_whole rfl small⟩

end Time.Span

namespace Analysis

/-- Of the time and the duration a document has their text and their whole milliseconds. -/
theorem toJson_update (a : Analysis) {t : Moment} {e : Span} (text : t.text = a.timestamp.text)
    (millis : e.millis = a.executionTime.millis) :
    toJson { a with timestamp := t, executionTime := e } = a.toJson := by
  unfold toJson
  dsimp only
  rw [text, millis]
  rfl

/-- The document of an analysis that was read describes it again, its time to the second and its
duration to the millisecond. -/
theorem Read.ofJson_toJson {now u : Moment} {a : Analysis} (h : a.Read now) (valid : now.Valid)
    (utc : a.timestamp.toUtc = .ok u) (four : 1000 ≤ u.date.year)
    (small : a.executionTime.millis.natAbs ≤ 2 ^ 53) :
    ∃ doc e, a.toJson = .ok doc ∧ e.millis = a.executionTime.millis ∧
      ∀ later, ofJson later doc = .ok { a with timestamp := u.onSecond, executionTime := e } := by
  obtain ⟨moved, -, -⟩ := Moment.toUtc_spec (h.timestamp valid) utc
  obtain ⟨span, spans, millis⟩ := Span.ofMillis_small small
  have written : ∃ doc, a.toJson = .ok doc := by
    unfold toJson Moment.text
    rw [utc]
    exact ⟨_, rfl⟩
  obtain ⟨doc, written⟩ := written
  refine ⟨doc, span, written, millis, fun later => ?_⟩
  rw [ofJson_written later h.settled utc moved four spans written, h.message]

theorem Read.again {now u : Moment} {a : Analysis} (h : a.Read now) (valid : now.Valid)
    (utc : a.timestamp.toUtc = .ok u) (four : 1000 ≤ u.date.year)
    (small : a.executionTime.millis.natAbs ≤ 2 ^ 53) :
    ∃ doc, a.toJson = .ok doc ∧
      ∀ later, ∃ b, ofJson later doc = .ok b ∧ b.toJson = .ok doc := by
  obtain ⟨doc, e, written, millis, read⟩ := h.ofJson_toJson valid utc four small
  have text : u.onSecond.text = a.timestamp.text := by
    rw [Moment.text, Moment.text, utc]
    rfl
  exact ⟨doc, written, fun later => ⟨_, read later, (a.toJson_update text millis).trans written⟩⟩

end Analysis

/-! ## Requests -/

namespace Options

/-- The options as a list of pairs. -/
def pairs (o : Options) : Json :=
  .arr (o.map fun p => .arr [p.1.toJson, p.2])

/-- Each key stands once, whatever it was written as. -/
def Distinct (o : Options) : Prop :=
  (o.map (·.1.identity)).Nodup

variable {o done : Options} {k : Scalar} {v : Json}

theorem put_new (new : k.identity ∉ o.map (·.1.identity)) : o.put k v = o ++ [(k, v)] :=
  setBy_of_fresh Scalar.identity new

theorem Distinct.put (h : o.Distinct) : (o.put k v).Distinct :=
  nodup_setBy Scalar.identity h

/-- By induction on the pairs, whatever options there are already. -/
theorem Distinct.ofPairs {index : Nat} {vs : List Json} (h : done.Distinct)
    (read : Options.ofPairs done index vs = .ok o) : o.Distinct := by
  induction vs generalizing done index with
  | nil =>
    cases read
    exact h
  | cons v vs ih =>
    obtain ⟨⟨key, value⟩, -, read⟩ := bind_ok_iff.mp read
    obtain ⟨k, -, read⟩ := bind_ok_iff.mp read
    exact ih h.put read

theorem distinct_of_ofJson (names : ∀ fields : Fields, v = .obj fields → fields.names.Nodup)
    (read : ofJson v = .ok o) : o.Distinct := by
  unfold ofJson at read
  split at read
  · next fields =>
    cases read
    have apart : Function.Injective Identity.str := fun _ _ => Identity.str.inj
    have keys := (names fields rfl).map apart
    unfold Fields.names at keys
    unfold Distinct
    rw [List.map_map] at keys ⊢
    exact keys
  · obtain ⟨vs, -, read⟩ := bind_ok_iff.mp read
    have none : Distinct [] := List.nodup_nil
    exact none.ofPairs read

theorem toScalar_toJson (k : Scalar) : k.toJson.toScalar = .ok k := by
  cases k <;> rfl

/-- By induction on the options that follow: each comes behind those that are there already. -/
theorem ofPairs_pairs {index : Nat} (distinct : (done ++ o).Distinct) :
    ofPairs done index (o.map fun p => .arr [p.1.toJson, p.2]) = .ok (done ++ o) := by
  induction o generalizing done index with
  | nil => rw [List.append_nil]; rfl
  | cons p o ih =>
    have new : p.1.identity ∉ done.map (·.1.identity) := by
      unfold Distinct at distinct
      rw [List.map_append, List.nodup_append] at distinct
      exact fun mem => distinct.2.2 _ mem _ (List.mem_cons_self ..) rfl
    have pair : pairOf index (.arr [p.1.toJson, p.2]) = .ok (p.1.toJson, p.2) := rfl
    rw [List.append_cons] at distinct ⊢
    rw [List.map_cons, ofPairs, pair]
    refine bind_ok_iff.mpr ⟨_, rfl, bind_ok_iff.mpr ⟨p.1, toScalar_toJson p.1, ?_⟩⟩
    rw [put_new new]
    exact ih distinct

/-- Options as they are read are read again from their pairs. -/
theorem ofJson_pairs (names : ∀ fields : Fields, v = .obj fields → fields.names.Nodup)
    (read : ofJson v = .ok o) : ofJson o.pairs = .ok o :=
  @ofPairs_pairs o [] 0 (distinct_of_ofJson names read)

end Options

namespace Request

theorem ofJson_toJson {v : Json} {r : Request} (read : ofJson v = .ok r) :
    ∃ r', ofJson r.toJson = .ok r' ∧ r'.toJson = r.toJson := by
  obtain ⟨d, -, read⟩ := bind_ok_iff.mp read
  obtain ⟨includePaths, -, read⟩ := bind_ok_iff.mp read
  obtain ⟨definitions, -, read⟩ := bind_ok_iff.mp read
  obtain ⟨options, -, read⟩ := bind_ok_iff.mp read
  cases read
  have source := Json.valueOr_settled d "source_path" (.str "")
  have output := Json.valueOr_settled d "output_file" (.str "")
  generalize d.valueOr "source_path" (.str "") = path at source ⊢
  generalize d.valueOr "output_file" (.str "") = file at output ⊢
  refine ⟨⟨path, file, includePaths, definitions, options.map fun p => (.str p.1.fieldName, p.2)⟩,
    ?_, ?_⟩
  · unfold ofJson toJson
    simp [Json.fieldsFor, bind, Except.bind, pure, Except.pure, Fields.valueOr, Fields.value,
      Fields.get?, List.lookup_cons, source, output, Json.orElse_arr, Json.items, Options.toJson,
      Json.orElse_obj, Options.ofJson]
  · simp [toJson, Options.toJson, Scalar.fieldName]

end Request

/-! ## Counts -/

/-- Whether a document has a text in a field. -/
def Json.tells (field text : String) : Json → Bool
  | .obj fields => (Fields.value fields field).isText text
  | _ => false

/-- How often each text stands in a field of some documents: texts that do not are left out. -/
structure Counted (field : String) (docs : List Json) (counts : Fields) : Prop where
  names : counts.names.Nodup
  count : ∀ text, counts.get? text =
    if docs.countP (Json.tells field text) = 0 then none
    else some (.int (docs.countP (Json.tells field text)))

namespace Tally

variable {κ : Type} {label : κ → String}

theorem add_label [DecidableEq κ] (apart : Function.Injective label) (t : Tally κ) (k : κ) (n : Int) :
    add label t k n = add (fun k => k) t k n := by
  induction t with
  | nil => rfl
  | cons p t ih => simp [add, apart.eq_iff, ih]

/-- Keys with labels of their own are counted by them. -/
theorem ofList_label [DecidableEq κ] (apart : Function.Injective label) (ks : List κ) :
    ofList label ks = ofList (fun k => k) ks := by
  unfold ofList
  simp only [add_label apart]

theorem get?_label (t : Tally κ) (text : String) :
    Fields.get? (t.map fun p => (label p.1, .int p.2)) text = (entry label t text).map .int := by
  unfold Fields.get?
  induction t with
  | nil => rfl
  | cons p t ih =>
    rw [List.map_cons, List.lookup_cons, entry_cons, ih]
    by_cases here : label p.1 = text
    · simp [here]
    · simp [here, beq_false_of_ne (Ne.symm here)]

end Tally

theorem Issue.tells_severity (i : Issue) (text : String) :
    i.toJson.tells "severity" text = true ↔ i.severity.label = text := by
  simp [Json.tells, toJson, Fields.value, Fields.get?, List.lookup_cons, Json.isText]

theorem Issue.tells_category (i : Issue) (text : String) :
    i.toJson.tells "category" text = true ↔ i.category.label = text := by
  simp [Json.tells, toJson, Fields.value, Fields.get?, List.lookup_cons, Json.isText]

namespace Analysis

/-- The counts of a document are those of its issues, if these say the label of what is counted. -/
theorem counted_tallyJson {κ : Type} [DecidableEq κ] {label : κ → String}
    (apart : Function.Injective label) {field : String} (part : Issue → κ)
    (told : ∀ (i : Issue) text, i.toJson.tells field text = true ↔ label (part i) = text)
    (is : List Issue) :
    ∃ counts, tallyJson label (Tally.ofList (fun k => k) (is.map part)) = .obj counts ∧
      Counted field (is.map Issue.toJson) counts := by
  refine ⟨_, rfl, names_tallyJson apart _, fun text => ?_⟩
  have count : (is.map Issue.toJson).countP (Json.tells field text) =
      (is.map part).countP fun k => label k = text := by
    rw [List.countP_map, List.countP_map]
    exact List.countP_congr fun i _ => by simp [told]
  rw [Tally.get?_label, ← Tally.ofList_label apart, Tally.entry_ofList, count]
  split <;> rfl

/-- What the document of an analysis has that was read. -/
structure Normal (doc : Fields) : Prop where
  severities : ∃ docs counts, doc.get? "issues" = some (.arr docs) ∧
    doc.get? "issue_counts_by_severity" = some (.obj counts) ∧ Counted "severity" docs counts
  categories : ∃ docs counts, doc.get? "issues" = some (.arr docs) ∧
    doc.get? "issue_counts_by_category" = some (.obj counts) ∧ Counted "category" docs counts
  explained : doc.get? "success" = some (.bool false) →
    ∃ message, doc.get? "error_message" = some message ∧ message.isBlank = false

theorem Read.normal {now : Moment} {a : Analysis} {doc : Json} (h : a.Read now)
    (written : a.toJson = .ok doc) : ∃ fields, doc = .obj fields ∧ Normal fields := by
  unfold toJson at written
  split at written
  · cases written
  · cases written
    obtain ⟨severities, ofSeverity, bySeverity⟩ :=
      counted_tallyJson Severity.label_injective (·.severity) Issue.tells_severity a.issues
    obtain ⟨categories, ofCategory, byCategory⟩ :=
      counted_tallyJson Category.label_injective (·.category) Issue.tells_category a.issues
    refine ⟨_, rfl, ⟨_, severities, rfl, congrArg some ofSeverity, bySeverity⟩,
      ⟨_, categories, rfl, congrArg some ofCategory, byCategory⟩, fun failed => ⟨_, rfl, h.explained ?_⟩⟩
    exact Json.bool.inj (Option.some.inj failed)

end Analysis

/-! ## The law of reading -/

/-- What reading promises when it is `now`: what is written of what was read is read and written as it
stands, and its counts and messages are in order. -/
structure ReadingLaw (now : Moment) : Prop where
  issue : ∀ d i, Issue.ofJson d = .ok i → Issue.ofJson i.toJson = .ok i
  request : ∀ d r, Request.ofJson d = .ok r →
    ∃ r', Request.ofJson r.toJson = .ok r' ∧ r'.toJson = r.toJson
  /-- Options keep the keys that are no texts. -/
  options : ∀ d o, (∀ fields : Fields, d = .obj fields → fields.names.Nodup) →
    Options.ofJson d = .ok o → Options.ofJson o.pairs = .ok o
  analysis : ∀ d a u, Analysis.ofJson now d = .ok a → a.timestamp.toUtc = .ok u →
    1000 ≤ u.date.year → a.executionTime.millis.natAbs ≤ 2 ^ 53 →
    ∃ doc, a.toJson = .ok doc ∧
      ∀ later, ∃ b, Analysis.ofJson later doc = .ok b ∧ b.toJson = .ok doc
  normal : ∀ d a doc, Analysis.ofJson now d = .ok a → a.toJson = .ok doc →
    ∃ fields, doc = .obj fields ∧ Analysis.Normal fields

theorem reading_is_idempotent {now : Moment} (valid : now.Valid) : ReadingLaw now where
  issue _ _ read := Issue.ofJson_toJson (Issue.settled_of_ofJson read)
  request _ _ read := Request.ofJson_toJson read
  options _ _ names read := Options.ofJson_pairs names read
  analysis _ _ _ read utc four small :=
    (Analysis.read_of_ofJson read).again valid utc four small
  normal _ _ _ read written := (Analysis.read_of_ofJson read).normal written

/-- A document whose fields are not in their forms, with a count that is none of its issues. -/
def loose : Json :=
  .obj
    [ ("tool_name", .int 7), ("timestamp", .str "2024-02-29T23:30:00.75-01:00"),
      ("success", .str ""), ("execution_time_ms", .bool true),
      ("issues", .arr [.obj [("severity", .str " Critical "), ("line_number", .bool true)]]),
      ("issue_counts_by_severity", .obj [("info", .int 9)]) ]

/-- What it is read as. -/
def tidy : Analysis where
  toolName := .int 7
  id := .str ""
  timestamp := ⟨⟨2024, 2, 29⟩, 23, 30, 0, 750000, -3600000000⟩
  issues := [⟨.str "", .str "", .str "", 1, 0, .critical, .style, .str "", .str "", none⟩]
  filesAnalyzed := 0
  executionTime := ⟨1000, by decide⟩
  success := false
  errorMessage := .str unknownFailure

def newYear : Moment := ⟨⟨2024, 1, 1⟩, 0, 0, 0, 0, 0⟩

theorem newYear_valid : newYear.Valid :=
  Moment.check_eq_ok_iff.mp (by decide)

theorem ofJson_loose : Analysis.ofJson newYear loose = .ok tidy := by
  have parsed : parse "2024-02-29T23:30:00.75-01:00" = .ok tidy.timestamp := by decide +kernel
  have given : (Json.str "2024-02-29T23:30:00.75-01:00").isBlank = false := by decide
  have time : Analysis.momentOf newYear (.str "2024-02-29T23:30:00.75-01:00") =
      .ok tidy.timestamp := by
    rw [Analysis.momentOf, given]
    exact congrArg (Except.mapError Fault.moment) parsed
  have named : Severity.ofText? " Critical " = some .critical := by decide +kernel
  have severity : Severity.ofJson (.str " Critical ") = .ok .critical := by
    show Except.ok ((Severity.ofText? " Critical ").getD .warning) = _
    rw [named]
    rfl
  have category : Category.ofJson (.str "style") = .ok .style := Category.ofJson_label .style
  have issues : List.mapM Issue.ofJson
      [.obj [("severity", .str " Critical "), ("line_number", .bool true)]] = .ok tidy.issues := by
    rw [List.mapM_cons]
    refine bind_ok_iff.mpr ⟨_, ?_, rfl⟩
    exact bind_ok_iff.mpr ⟨_, rfl, bind_ok_iff.mpr ⟨1, rfl, bind_ok_iff.mpr ⟨0, rfl,
      bind_ok_iff.mpr ⟨_, severity, bind_ok_iff.mpr ⟨_, category, rfl⟩⟩⟩⟩⟩
  have span : (Span.ofMillis 1).mapError Fault.span = .ok tidy.executionTime := by
    refine mapError_ok_iff.mpr ?_
    rw [Span.ofMillis, Span.ofMicros, dif_pos (by decide)]
    rfl
  exact bind_ok_iff.mpr ⟨_, rfl, bind_ok_iff.mpr ⟨_, time, bind_ok_iff.mpr ⟨_, rfl,
    bind_ok_iff.mpr ⟨_, issues, bind_ok_iff.mpr ⟨0, rfl, bind_ok_iff.mpr ⟨1, rfl,
      bind_ok_iff.mpr ⟨_, span, rfl⟩⟩⟩⟩⟩⟩⟩

/-- Its time is in the new month in UTC, its counts are told anew and its failure is explained. -/
theorem reading_is_idempotent_loose : ∃ doc, tidy.toJson = .ok doc ∧
    (∃ b, Analysis.ofJson newYear doc = .ok b ∧ b.toJson = .ok doc) ∧
      ∃ fields, doc = .obj fields ∧ Analysis.Normal fields := by
  have law := reading_is_idempotent newYear_valid
  have moved : tidy.timestamp.toUtc = .ok ⟨⟨2024, 3, 1⟩, 0, 30, 0, 750000, 0⟩ := by decide +kernel
  have small : tidy.executionTime.millis.natAbs ≤ 2 ^ 53 := by decide +kernel
  obtain ⟨doc, written, again⟩ := law.analysis loose tidy _ ofJson_loose moved (by decide) small
  exact ⟨doc, written, again newYear, law.normal loose tidy doc ofJson_loose written⟩

end LintHub
