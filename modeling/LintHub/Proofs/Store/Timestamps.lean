import LintHub.Proofs.Store.Normal
import LintHub.Proofs.Time.Years

/-! # Which timestamps survive

A timestamp is written in UTC to the second. From the year 1000 on it is read as that second. Those
of the years before are written with fewer digits than reading asks for, so that a document with one is
refused, and outside the years 1 to 9999 there is no document.
-/

namespace LintHub

open Time

/-! ## The text of a moment -/

namespace Time.Moment

/-- What is left of a moment: the second that it lies in, in UTC. -/
structure Survives (m t : Moment) : Prop where
  valid : t.Valid
  utc : t.offset = 0
  whole : t.micro = 0
  second : t.utcMicros = m.utcMicros / 1000000 * 1000000

variable {m u : Moment}

theorem survives_onSecond (valid : m.Valid) (utc : m.toUtc = .ok u) : m.Survives u.onSecond := by
  obtain ⟨moved, offset, same⟩ := toUtc_spec valid utc
  exact ⟨moved.onSecond, rfl, rfl, by rw [utcMicros_onSecond moved offset, same]⟩

/-- A moment of the calendar has a text, which is that of its year in UTC. -/
theorem Valid.text_ok (valid : m.Valid) (first : yearStart 1 ≤ m.utcMicros)
    (last : m.utcMicros < yearStart 10000) : ∃ u, m.toUtc = .ok u ∧ m.text = .ok u.utcText ∧
      u.Valid ∧ ∀ year, year ≤ u.date.year ↔ yearStart year ≤ m.utcMicros := by
  obtain ⟨u, utc⟩ := valid.toUtc_ok first last
  obtain ⟨moved, offset, same⟩ := toUtc_spec valid utc
  refine ⟨u, utc, ?_, moved, fun year => ?_⟩
  · rw [text, utc]
    rfl
  · rw [moved.le_year_utc offset, same]

theorem Valid.text_error (valid : m.Valid)
    (outside : ¬ (yearStart 1 ≤ m.utcMicros ∧ m.utcMicros < yearStart 10000)) :
    m.text = .error .outOfRange := by
  rw [text, valid.toUtc_eq_error_iff.mpr outside]
  rfl

theorem Valid.text_late (valid : m.Valid) (first : yearStart 1000 ≤ m.utcMicros)
    (last : m.utcMicros < yearStart 10000) :
    ∃ u, m.toUtc = .ok u ∧ m.text = .ok u.utcText ∧ u.Valid ∧ 1000 ≤ u.date.year := by
  have start := yearStart_mono (show 1 ≤ 1000 by decide)
  obtain ⟨u, utc, told, moved, years⟩ := valid.text_ok (Int.le_trans start first) last
  exact ⟨u, utc, told, moved, (years 1000).mpr first⟩

theorem Valid.text_early (valid : m.Valid) (first : yearStart 1 ≤ m.utcMicros)
    (last : m.utcMicros < yearStart 1000) :
    ∃ u : Moment, m.text = .ok u.utcText ∧ parse u.utcText = .error (.malformed u.utcText) := by
  have finish := yearStart_mono (show 1000 ≤ 10000 by decide)
  obtain ⟨u, -, told, moved, years⟩ := valid.text_ok first (Int.lt_of_lt_of_le last finish)
  have short : u.date.year < 1000 := Int.not_le.mp ((years 1000).not.mpr (Int.not_le.mpr last))
  exact ⟨u, told, parse_early moved short⟩

/-- What the text of a moment comes to, by the year that it lies in in UTC. -/
structure TextLaw (m : Moment) : Prop where
  survives : yearStart 1000 ≤ m.utcMicros → m.utcMicros < yearStart 10000 →
    ∃ s t, m.text = .ok s ∧ parse s = .ok t ∧ m.Survives t
  early : yearStart 1 ≤ m.utcMicros → m.utcMicros < yearStart 1000 →
    ∃ s, m.text = .ok s ∧ parse s = .error (.malformed s)
  outside : ¬ (yearStart 1 ≤ m.utcMicros ∧ m.utcMicros < yearStart 10000) →
    m.text = .error .outOfRange

theorem Valid.textLaw (valid : m.Valid) : m.TextLaw where
  survives first last := by
    obtain ⟨u, utc, told, moved, four⟩ := valid.text_late first last
    exact ⟨_, _, told, parse_utcText moved four, survives_onSecond valid utc⟩
  early first last := by
    obtain ⟨u, told, refused⟩ := valid.text_early first last
    exact ⟨_, told, refused⟩
  outside := valid.text_error

end Time.Moment

/-! ## Timestamps of documents -/

namespace Analysis

variable {now : Moment} {a : Analysis}

theorem toJson_timestamp {s : String} (told : a.timestamp.text = .ok s) :
    ∃ fields : Fields, a.toJson = .ok (.obj fields) ∧ fields.value "timestamp" = .str s := by
  unfold toJson
  rw [told]
  exact ⟨_, rfl, rfl⟩

/-- What comes of the timestamp of an analysis that is saved, by the year that it lies in in UTC. -/
structure TimestampLaw (a : Analysis) : Prop where
  survives : yearStart 1000 ≤ a.timestamp.utcMicros → a.timestamp.utcMicros < yearStart 10000 →
    ∃ fields : Fields, a.toJson = .ok (.obj fields) ∧
      ∀ later, ∃ t, momentOf later (fields.value "timestamp") = .ok t ∧ a.timestamp.Survives t
  /-- The duration is what else may be refused. -/
  loaded : yearStart 1000 ≤ a.timestamp.utcMicros → a.timestamp.utcMicros < yearStart 10000 →
    a.executionTime.millis.natAbs ≤ 2 ^ 53 → ∃ doc, a.toJson = .ok doc ∧
      ∀ later, ∃ b, ofJson later doc = .ok b ∧ a.timestamp.Survives b.timestamp
  early : yearStart 1 ≤ a.timestamp.utcMicros → a.timestamp.utcMicros < yearStart 1000 →
    ∃ doc s, a.toJson = .ok doc ∧ a.timestamp.text = .ok s ∧
      ∀ later, ofJson later doc = .error (.moment (.malformed s))
  outside : ¬ (yearStart 1 ≤ a.timestamp.utcMicros ∧ a.timestamp.utcMicros < yearStart 10000) →
    a.toJson = .error (.moment .outOfRange)

theorem Read.timestampLaw (h : a.Read now) (valid : now.Valid) : a.TimestampLaw where
  survives first last := by
    obtain ⟨u, utc, told, moved, four⟩ := (h.timestamp valid).text_late first last
    obtain ⟨fields, written, timestamp⟩ := toJson_timestamp told
    refine ⟨fields, written, fun later =>
      ⟨u.onSecond, ?_, Moment.survives_onSecond (h.timestamp valid) utc⟩⟩
    rw [timestamp]
    exact momentOf_utcText later moved four
  loaded first last small := by
    obtain ⟨u, utc, -, -, four⟩ := (h.timestamp valid).text_late first last
    obtain ⟨doc, e, written, -, read⟩ := h.ofJson_toJson valid utc four small
    exact ⟨doc, written, fun later =>
      ⟨_, read later, Moment.survives_onSecond (h.timestamp valid) utc⟩⟩
  early first last := by
    obtain ⟨u, told, malformed⟩ := (h.timestamp valid).text_early first last
    obtain ⟨fields, written, timestamp⟩ := toJson_timestamp told
    refine ⟨_, _, written, told, fun later => ?_⟩
    have refused : momentOf later (fields.value "timestamp") =
        .error (.moment (.malformed u.utcText)) := by
      rw [timestamp, momentOf_text, malformed]
      rfl
    exact bind_error_iff.mpr (.inr ⟨fields, rfl, bind_error_iff.mpr (.inl refused)⟩)
  outside out := by
    unfold toJson
    rw [(h.timestamp valid).text_error out]

end Analysis

/-! ## The law of timestamps -/

/-- Every moment follows the law of texts, and the timestamp of every document that is read that of
timestamps. -/
theorem timestamps_read_back {now : Moment} (valid : now.Valid) :
    (∀ m : Moment, m.Valid → m.TextLaw) ∧ ∀ d a, Analysis.ofJson now d = .ok a → a.TimestampLaw :=
  ⟨fun _ => Moment.Valid.textLaw, fun _ _ read => (Analysis.read_of_ofJson read).timestampLaw valid⟩

/-- Half an hour into the year 1000, ahead of UTC. -/
def millennium : Moment := ⟨⟨1000, 1, 1⟩, 0, 30, 0, 0, 3600000000⟩

theorem millennium_valid : millennium.Valid :=
  Moment.check_eq_ok_iff.mp (by decide)

/-- The leap day is saved, half an hour of the year 1000 lies in the year before in UTC. -/
theorem timestamps_read_back_loose :
    (∃ doc, tidy.toJson = .ok doc ∧ ∀ later, ∃ b, Analysis.ofJson later doc = .ok b ∧
      tidy.timestamp.Survives b.timestamp) ∧
    ∃ s, millennium.text = .ok s ∧ parse s = .error (.malformed s) := by
  obtain ⟨texts, timestamps⟩ := timestamps_read_back newYear_valid
  have small : tidy.executionTime.millis.natAbs ≤ 2 ^ 53 := by decide +kernel
  exact ⟨(timestamps loose tidy ofJson_loose).loaded (by decide +kernel) (by decide +kernel) small,
    (texts millennium millennium_valid).early (by decide +kernel) (by decide +kernel)⟩

/-- A moment before the year 1000 is not read back from its text. -/
theorem not_every_text_is_read : ¬ ∀ m u : Moment, m.Valid → m.toUtc = .ok u →
    ∃ s, m.text = .ok s ∧ parse s = .ok u.onSecond := by
  intro claim
  have utc : millennium.toUtc = .ok ⟨⟨999, 12, 31⟩, 23, 30, 0, 0, 0⟩ := by decide +kernel
  obtain ⟨s, told, read⟩ := claim millennium _ millennium_valid utc
  obtain ⟨s', told', refused⟩ :=
    millennium_valid.textLaw.early (by decide +kernel) (by decide +kernel)
  cases told.symm.trans told'
  cases read.symm.trans refused

end LintHub
