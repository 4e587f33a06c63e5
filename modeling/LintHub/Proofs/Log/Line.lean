import LintHub.Log.Record
import LintHub.Proofs.Json.Line
import LintHub.Proofs.Time.Years
import LintHub.Proofs.Work.Faults

/-! # Records as lines

A record whose message can be filled in is written as one line exactly if the calendar has its
moment. The line holds printable ASCII characters only, and what is read of it is the record: its
level, its logger, its message, what is attached to it and the text of its fault, under their names
and under no others.
-/

namespace LintHub

open Time (yearStart microsPerDay)

/-- The creation time is a moment of the years 1 to 9999. -/
def LogRecord.Timed (r : LogRecord) : Prop :=
  ∃ micros, epochMicros r.created = .ok micros ∧
    yearStart 1 ≤ epochDay * microsPerDay + micros ∧
    epochDay * microsPerDay + micros < yearStart 10000

/-- What the fields of a line say of the record. -/
structure LogRecord.Told (r : LogRecord) (message : String) (fields : Fields) : Prop where
  names : fields.names = ["ts", "level", "logger", "msg"] ++
    ["tool", "analysis_id", "job_id"].filter (fun name => (r.extras.get? name).isSome) ++
    (r.fault.map fun _ => "exc").toList
  moment : ∃ t : Time.Moment, t.Valid ∧ t.offset = 0 ∧
    epochMicros r.created = .ok (t.utcMicros - epochDay * microsPerDay) ∧
    fields.get? "ts" = some (.str t.isoText)
  level : fields.get? "level" = some (.str (levelText r.level))
  logger : fields.get? "logger" = some (.str r.logger)
  message : fields.get? "msg" = some (.str message)
  attached : ∀ name ∈ ["tool", "analysis_id", "job_id"], fields.get? name = r.extras.get? name
  fault : fields.get? "exc" = r.fault.map fun f => .str (r.traceback ++ f.trace)

/-! ## The moment of a record -/

/-- Whatever is refused on the way lies outside of the calendar. -/
theorem momentOfEpoch_ok_iff {created : Json} {t : Time.Moment} : momentOfEpoch created = .ok t ↔
    ∃ micros, epochMicros created = .ok micros ∧
      Time.Moment.ofUtcMicros (epochDay * microsPerDay + micros) = .ok t := by
  unfold momentOfEpoch
  rw [bind_ok_iff]
  refine exists_congr fun micros => and_congr_right fun _ => ?_
  dsimp only
  constructor
  · intro made
    split at made
    · cases made
    · split at made
      · cases made
      · split at made
        · cases made
        · exact mapError_ok_iff.mp made
  · intro made
    obtain ⟨low, high⟩ := Time.Moment.ofUtcMicros_ok_iff.mp ⟨t, made⟩
    have first : yearStart 1 = 86400000000 := by decide
    have last : yearStart 10000 = 315537984000000000 := by decide
    have days : epochDay * microsPerDay = 62135683200000000 := by decide
    have year : ¬ ((Time.Date.ofDayNumber ((epochDay * microsPerDay + micros) /
        microsPerDay)).year < 1 ∨ 9999 < (Time.Date.ofDayNumber ((epochDay * microsPerDay +
        micros) / microsPerDay)).year) := by
      unfold Time.Moment.ofUtcMicros at made
      dsimp only at made
      split at made
      · cases made
      · next within => simpa using within
    rw [if_neg (by unfold timeBound; omega), if_neg (by unfold yearRange; dsimp only; omega),
      if_neg year]
    exact mapError_ok_iff.mpr made

theorem LogRecord.timed_iff {r : LogRecord} : r.Timed ↔ ∃ t, momentOfEpoch r.created = .ok t := by
  unfold Timed
  simp only [← Time.Moment.ofUtcMicros_ok_iff, momentOfEpoch_ok_iff]
  constructor
  · rintro ⟨micros, made, t, moment⟩
    exact ⟨t, micros, made, moment⟩
  · rintro ⟨t, micros, made, moment⟩
    exact ⟨micros, made, t, moment⟩

/-! ## The fields of a record -/

/-- What is attached under some names. -/
def attachedFields (extras : Fields) (names : List String) : Fields :=
  names.filterMap fun name => (extras.get? name).map fun v => (name, v)

/-- By induction on the names: one that nothing is attached under adds no field. -/
theorem lookup_attachedFields (extras : Fields) (names : List String) (name : String) :
    (attachedFields extras names).lookup name =
      if name ∈ names then extras.get? name else none := by
  induction names with
  | nil => rfl
  | cons n names ih =>
    unfold attachedFields at ih ⊢
    cases there : extras.get? n with
    | none =>
      rw [List.filterMap_cons, there, Option.map_none]
      dsimp only
      rw [ih]
      by_cases same : name = n
      · subst same
        simp [there]
      · simp [same]
    | some v =>
      rw [List.filterMap_cons, there, Option.map_some]
      dsimp only
      rw [lookup_cons_ite, ih]
      by_cases same : name = n
      · subst same
        simp [there]
      · simp [same]

theorem names_attachedFields (extras : Fields) (names : List String) :
    (attachedFields extras names).names =
      names.filter fun name => (extras.get? name).isSome := by
  induction names with
  | nil => rfl
  | cons n names ih =>
    unfold attachedFields Fields.names at ih ⊢
    cases there : extras.get? n with
    | none => simp [there, ih]
    | some v => simp [there, ih]

/-- The fields of a record with its moment and its message settled. -/
def LogRecord.fieldsAt (r : LogRecord) (t : Time.Moment) (message : String) : Fields :=
  [ ("ts", .str t.isoText), ("level", .str (levelText r.level)), ("logger", .str r.logger),
    ("msg", .str message) ] ++
  attachedFields r.extras extraNames ++
  (r.fault.map fun f => ("exc", Json.str (r.traceback ++ f.trace))).toList

namespace LogRecord

variable {r : LogRecord} {t : Time.Moment} {message : String}

theorem toJson_ok_iff (formatted : Template.fill r.message.display r.args = .ok message)
    {doc : Json} :
    r.toJson = .ok doc ↔
      ∃ t, momentOfEpoch r.created = .ok t ∧ .obj (r.fieldsAt t message) = doc := by
  unfold toJson
  rw [bind_ok_iff]
  refine exists_congr fun t => and_congr_right fun _ => ?_
  rw [formatted]
  exact ⟨Except.ok.inj, congrArg Except.ok⟩

theorem names_fieldsAt (r : LogRecord) (t : Time.Moment) (message : String) :
    (r.fieldsAt t message).names = ["ts", "level", "logger", "msg"] ++
      extraNames.filter (fun name => (r.extras.get? name).isSome) ++
      (r.fault.map fun _ => "exc").toList := by
  have attached := names_attachedFields r.extras extraNames
  unfold Fields.names at attached
  unfold fieldsAt Fields.names
  rw [List.map_append, List.map_append, attached]
  cases r.fault <;> rfl

theorem names_nodup (r : LogRecord) (t : Time.Moment) (message : String) :
    (r.fieldsAt t message).names.Nodup := by
  have all : (["ts", "level", "logger", "msg"] ++ extraNames ++ ["exc"]).Nodup := by decide
  refine all.sublist ?_
  rw [names_fieldsAt]
  refine ((List.Sublist.refl _).append List.filter_sublist).append ?_
  cases r.fault <;> simp

/-- The three lists of fields have no names in common. -/
theorem get?_fieldsAt (r : LogRecord) (t : Time.Moment) (message name : String) :
    (r.fieldsAt t message).get? name =
      (([ ("ts", Json.str t.isoText), ("level", .str (levelText r.level)),
          ("logger", .str r.logger), ("msg", .str message) ].lookup name).or
        (if name ∈ extraNames then r.extras.get? name else none)).or
      (if name = "exc" then r.fault.map fun f => .str (r.traceback ++ f.trace) else none) := by
  unfold fieldsAt
  rw [Fields.get?, List.lookup_append, List.lookup_append, lookup_attachedFields]
  congr 1
  cases r.fault with
  | none => simp
  | some f => exact lookup_cons_ite ..

theorem told_fieldsAt (moment : momentOfEpoch r.created = .ok t) :
    r.Told message (r.fieldsAt t message) := by
  obtain ⟨micros, made, utc⟩ := momentOfEpoch_ok_iff.mp moment
  obtain ⟨valid, offset, same⟩ := Time.Moment.ofUtcMicros_spec utc
  refine ⟨names_fieldsAt r t message, ⟨t, valid, offset, ?_, get?_fieldsAt ..⟩, get?_fieldsAt ..,
    get?_fieldsAt .., get?_fieldsAt .., fun name mem => ?_, get?_fieldsAt ..⟩
  · rw [made, same, Int.add_comm, Int.add_sub_cancel]
  · rw [get?_fieldsAt, if_pos (show name ∈ extraNames from mem)]
    simp only [List.mem_cons, List.not_mem_nil, or_false] at mem
    rcases mem with rfl | rfl | rfl <;> exact Option.or_none

theorem plain_fieldsAt (t : Time.Moment) (message : String)
    (plain : ∀ name ∈ extraNames, ∀ v ∈ r.extras.get? name, v.Plain) :
    (Json.obj (r.fieldsAt t message)).Plain := by
  refine ⟨names_nodup r t message, Json.plainFields_iff.mpr fun f mem => ?_⟩
  unfold fieldsAt at mem
  rcases List.mem_append.mp mem with mem | mem
  · rcases List.mem_append.mp mem with mem | mem
    · simp only [List.mem_cons, List.not_mem_nil, or_false] at mem
      rcases mem with rfl | rfl | rfl | rfl <;> trivial
    · obtain ⟨name, listed, v, there, rfl⟩ : ∃ name ∈ extraNames, ∃ v, r.extras.get? name = some v ∧
          (name, v) = f := by simpa [attachedFields] using mem
      exact plain name listed v there
  · cases fault : r.fault with
    | none => simp [fault] at mem
    | some f' =>
      obtain rfl : f = _ := by simpa [fault] using mem
      trivial

/-- A record is written exactly if the calendar has its moment, and its line gives it back. -/
theorem line_gives_record_back (formatted : Template.fill r.message.display r.args = .ok message)
    (plain : ∀ name ∈ ["tool", "analysis_id", "job_id"], ∀ v ∈ r.extras.get? name, v.Plain) :
    ((∃ line, r.line = .ok line) ↔ r.Timed) ∧
      ∀ line, r.line = .ok line →
        (∀ c ∈ line.toList, ' ' ≤ c ∧ c ≤ '~') ∧
        ∃ fields, Json.read line = .ok (.obj fields) ∧ r.Told message fields := by
  -- what is attached can always be written, so that only the moment decides whether there is a line
  have fits (t : Time.Moment) := plain_fieldsAt t message plain
  have lines {line : String} : r.line = .ok line ↔
      ∃ t, momentOfEpoch r.created = .ok t ∧ (Json.obj (r.fieldsAt t message)).write = line := by
    unfold LogRecord.line
    rw [bind_ok_iff]
    constructor
    · rintro ⟨doc, made, written⟩
      obtain ⟨t, moment, rfl⟩ := (toJson_ok_iff formatted).mp made
      rw [if_pos (Json.integersFit_of_plain _ (fits t))] at written
      exact ⟨t, moment, Except.ok.inj written⟩
    · rintro ⟨t, moment, rfl⟩
      exact ⟨_, (toJson_ok_iff formatted).mpr ⟨t, moment, rfl⟩,
        if_pos (Json.integersFit_of_plain _ (fits t))⟩
  constructor
  · simp only [lines, timed_iff]
    exact ⟨fun ⟨_, t, moment, _⟩ => ⟨t, moment⟩, fun ⟨t, moment⟩ => ⟨_, t, moment, rfl⟩⟩
  · intro line written
    obtain ⟨t, moment, rfl⟩ := lines.mp written
    refine ⟨fun c mem => ?_, _, Json.read_write (fits t), told_fieldsAt moment⟩
    obtain ⟨low, high⟩ := Json.write_isPrintable _ c mem
    exact ⟨low, Nat.le_of_lt_succ high⟩

/-- A record with quotes, line breaks and a character beyond 16 bits in its message, a document
attached and a fault with the lines that lead to it. -/
def crowded : LogRecord where
  logger := "tools.bandit"
  level := 40
  message := .str "%s failed:\n\"%s\""
  args := [.str "C:\\bandit", .str "🐛"]
  created := .int 1735689600
  extras :=
    [ ("tool",
        .obj [("ratio", .float (.ofDecimal false 1 (-1))), ("codes", .arr [.int (-3), .null])]),
      ("stack", .bool true) ]
  fault := some (.foreign .runtime [.str "ended\tearly"])
  traceback := "Traceback (most recent call last):\n"

/-- The document is read back from the line, and so is the message with its arguments filled in. -/
theorem line_gives_record_back_crowded :
    ∃ (line : String) (fields : Fields), crowded.line = .ok line ∧
      (∀ c ∈ line.toList, ' ' ≤ c ∧ c ≤ '~') ∧
      Json.read line = .ok (.obj fields) ∧
      fields.names = ["ts", "level", "logger", "msg", "tool", "exc"] ∧
      fields.get? "msg" = some (.str "C:\\bandit failed:\n\"🐛\"") ∧
      fields.get? "tool" = crowded.extras.get? "tool" ∧
      fields.get? "exc" = some (.str
        "Traceback (most recent call last):\nRuntimeError: ended\tearly") := by
  have formatted : Template.fill crowded.message.display crowded.args =
      .ok "C:\\bandit failed:\n\"🐛\"" := by
    show Template.fill "%s failed:\n\"%s\"" [.str "C:\\bandit", .str "🐛"] = _
    with_unfolding_all rfl
  have plain : ∀ name ∈ ["tool", "analysis_id", "job_id"],
      ∀ v ∈ crowded.extras.get? name, v.Plain := by
    have short : 3 < 10 ^ Json.digitLimit :=
      Nat.lt_of_lt_of_le (by decide : 3 < 10 ^ 1) (Nat.pow_le_pow_right (by decide) (by decide))
    simp [crowded, Fields.get?, List.lookup_cons, Json.Plain, Json.PlainItems, Json.PlainFields,
      Fields.names, short]
  obtain ⟨written, told⟩ := line_gives_record_back formatted plain
  obtain ⟨line, made⟩ := written.mpr ⟨1735689600000000, rfl, by decide, by decide⟩
  obtain ⟨printed, fields, read, told⟩ := told line made
  exact ⟨line, fields, made, printed, read, told.names, told.message, told.attached _ (by simp),
    told.fault⟩

/-- A record of the first second after the year 9999. -/
def late : LogRecord where
  logger := "n"
  level := 20
  message := .str "hello"
  args := []
  created := .int 253402300800
  extras := []
  fault := none

/-- Not every record whose message can be filled in has a line: the calendar ends with the year
9999. -/
theorem not_every_record_has_a_line :
    late.line = .error (.moment (.year 10000)) ∧
      ¬ ∀ (r : LogRecord) (message : String),
        Template.fill r.message.display r.args = .ok message →
        (∀ name ∈ ["tool", "analysis_id", "job_id"], ∀ v ∈ r.extras.get? name, v.Plain) →
        ∃ line, r.line = .ok line := by
  have refused : late.line = .error (.moment (.year 10000)) := by rfl
  refine ⟨refused, fun every => ?_⟩
  obtain ⟨line, made⟩ := every late "hello" rfl fun name _ v there => nomatch there
  rw [refused] at made
  cases made

end LogRecord

end LintHub
