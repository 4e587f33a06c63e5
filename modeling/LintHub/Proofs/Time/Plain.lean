import LintHub.Proofs.Text.Numerals
import LintHub.Proofs.Time.Calendar
import LintHub.Time.Parse

/-! # The text form is read back

A moment moved to UTC is the same moment, and its text form is read as that moment without the part
of a second. This holds from the year 1000 on, the first whose text has four digits.
-/

namespace LintHub.Time

open Text

/-! ## Moments in UTC -/

namespace Moment

/-- The parts that a moment has to have. -/
structure Valid (m : Moment) : Prop where
  year : 1 ≤ m.date.year ∧ m.date.year ≤ 9999
  date : m.date.Valid
  hour : m.hour < 24
  minute : m.minute < 60
  second : m.second < 60
  micro : m.micro < 1000000

theorem check_eq_ok_iff {m : Moment} : m.check = .ok m ↔ m.Valid := by
  unfold check
  constructor
  · intro h
    repeat
      split at h
      · cases h
    next year month day hour minute second micro =>
      simp only [Bool.or_eq_true, decide_eq_true_eq, not_or, Int.not_lt, Nat.not_lt] at year month day
      exact ⟨year, ⟨by omega, by omega⟩, by omega, by omega, by omega, by omega⟩
  · rintro ⟨year, ⟨month, day⟩, hour, minute, second, micro⟩
    simp only [Bool.or_eq_true, decide_eq_true_eq]
    repeat
      rw [if_neg (by omega)]

theorem check_ok {m t : Moment} (h : m.check = .ok t) : t.Valid := by
  have same : m.check = .ok t → t = m := by
    unfold check
    repeat
      split
      · exact fun h => nomatch h
    exact fun h => (Except.ok.inj h).symm
  obtain rfl := same h
  exact check_eq_ok_iff.mp h

/-- The moment does not tell more than the whole second, in UTC. -/
def onSecond (m : Moment) : Moment :=
  { m with micro := 0, offset := 0 }

theorem Valid.onSecond {m : Moment} (h : m.Valid) : m.onSecond.Valid :=
  ⟨h.year, h.date, h.hour, h.minute, h.second, Nat.zero_lt_succ _⟩

theorem utcMicros_onSecond {m : Moment} (h : m.Valid) (utc : m.offset = 0) :
    m.onSecond.utcMicros = m.utcMicros / 1000000 * 1000000 := by
  have micro := h.micro
  unfold onSecond utcMicros localMicros microsPerDay
  dsimp only
  omega

theorem ofUtcMicros_spec {micros : Int} {u : Moment} (h : ofUtcMicros micros = .ok u) :
    u.Valid ∧ u.offset = 0 ∧ u.utcMicros = micros := by
  unfold ofUtcMicros at h
  dsimp only at h
  split at h
  · cases h
  · next year =>
    cases h
    simp only [Bool.or_eq_true, decide_eq_true_eq, not_or, Int.not_lt] at year
    obtain ⟨valid, number⟩ := Date.ofDayNumber_spec (micros / microsPerDay)
    have day : (0 : Int) < microsPerDay := by decide
    have low := Int.emod_nonneg micros (Int.ne_of_gt day)
    have high := Int.emod_lt_of_pos micros day
    have whole := Int.mul_ediv_add_emod micros microsPerDay
    refine ⟨⟨year, valid, ?_, ?_, ?_, ?_⟩, rfl, ?_⟩
    · dsimp only
      unfold microsPerDay at *
      omega
    · exact Nat.mod_lt _ (by decide)
    · exact Nat.mod_lt _ (by decide)
    · exact Nat.mod_lt _ (by decide)
    · unfold utcMicros localMicros
      dsimp only
      rw [number]
      unfold microsPerDay at *
      omega

/-- Moved to UTC a moment stays the same moment. -/
theorem toUtc_spec {m u : Moment} (valid : m.Valid) (h : m.toUtc = .ok u) :
    u.Valid ∧ u.offset = 0 ∧ u.utcMicros = m.utcMicros := by
  unfold toUtc at h
  split at h
  · next utc =>
    cases h
    exact ⟨valid, utc, rfl⟩
  · exact ofUtcMicros_spec h

end Moment

/-! ## Reading the text form -/

theorem cutAt_append {seps head rest : List Char} {c : Char} (apart : ∀ d ∈ head, d ∉ seps)
    (sep : c ∈ seps) : cutAt seps (head ++ c :: rest) = some (head, rest) := by
  have front : (head ++ c :: rest).takeWhile (fun d => !seps.contains d) = head := by
    rw [List.takeWhile_append_of_pos (by simpa using apart), List.takeWhile_cons,
      if_neg (by simpa using sep), List.append_nil]
  unfold cutAt
  dsimp only
  rw [front, List.drop_left]

theorem part?_month : ∀ n < 13, 1 ≤ n →
    part? monthForms (paddedNat 2 n).toList = some n := by decide

theorem part?_day : ∀ n < 32, 1 ≤ n →
    part? dayForms (paddedNat 2 n).toList = some n := by decide

theorem part?_hour : ∀ n < 24,
    part? hourForms (paddedNat 2 n).toList = some n := by decide

theorem part?_minute : ∀ n < 60,
    part? minuteForms (paddedNat 2 n).toList = some n := by decide

theorem part?_second : ∀ n < 60,
    part? secondForms (paddedNat 2 n).toList = some n := by decide

theorem part?_year {n : Nat} (low : 1000 ≤ n) (high : n ≤ 9999) :
    part? yearForms (natText n).toList = some n := by
  have four := natText_four low high
  have digits : ∀ c ∈ (natText n).toList, isDigit c = true := by
    intro c h
    rw [natText_toList] at h
    exact isDigit_of_ascii (isDigit_toDigits h)
  have fit : ∀ cs : List Char, cs.length = 4 → (∀ c ∈ cs, isDigit c = true) →
      (yearForms.any (fits · cs)) = true := by
    intro cs length digits
    obtain ⟨a, b, c, d, rfl⟩ : ∃ a b c d, cs = [a, b, c, d] := by
      match cs, length with
      | [a, b, c, d], _ => exact ⟨a, b, c, d, rfl⟩
    simp only [List.forall_mem_cons] at digits
    simp [yearForms, fits, Mark.accepts, digits]
  rw [part?, if_pos (fit _ four digits), natText_toList, natOfDigits_toDigits]

theorem paddedNat_digits {n : Nat} (h : n < 100) :
    ∀ c ∈ (paddedNat 2 n).toList, c.isDigit = true := by
  rw [paddedNat_two h]
  have digit : ∀ d < 10, d.digitChar.isDigit = true := by decide
  simp only [List.forall_mem_cons]
  exact ⟨digit _ (by omega), digit _ (by omega), by simp⟩

theorem cutAt_digits {seps ds rest : List Char} {c : Char} (digits : ∀ d ∈ ds, d.isDigit = true)
    (plain : ∀ d ∈ seps, d.isDigit = false) (sep : c ∈ seps) :
    cutAt seps (ds ++ c :: rest) = some (ds, rest) := by
  refine cutAt_append (fun d mem stop => ?_) sep
  have digit := digits d mem
  rw [plain d stop] at digit
  cases digit

theorem utcText_toList (m : Moment) :
    m.utcText.toList = (intText m.date.year).toList ++ '-' :: ((paddedNat 2 m.date.month).toList ++
      '-' :: ((paddedNat 2 m.date.day).toList ++ 'T' :: ((paddedNat 2 m.hour).toList ++
      ':' :: ((paddedNat 2 m.minute).toList ++
      ':' :: ((paddedNat 2 m.second).toList ++ ['Z']))))) := by
  simp [Moment.utcText, Moment.monthDayText, Moment.timeText, toString]

theorem daysInMonth_le (year : Int) (month : Nat) : daysInMonth year month ≤ 31 := by
  unfold daysInMonth
  split
  · split <;> decide
  all_goals decide

/-- Every part but the year is read back, whatever the year is read as. -/
theorem plainParts?_utcText_eq {m : Moment} (valid : m.Valid) :
    plainParts? m.utcText.toList =
      (part? yearForms (natText m.date.year.toNat).toList).map fun year =>
        { m.onSecond with date := ⟨year, m.date.month, m.date.day⟩ } := by
  obtain ⟨⟨yearLow, -⟩, ⟨month, day⟩, hour, minute, second, -⟩ := valid
  have year : (intText m.date.year).toList = (natText m.date.year.toNat).toList := by
    rw [intText, if_neg (by omega), show m.date.year.natAbs = m.date.year.toNat by omega]
  have yearDigits : ∀ c ∈ (natText m.date.year.toNat).toList, c.isDigit = true := by
    rw [natText_toList]
    exact fun c => isDigit_toDigits
  have dayLimit := daysInMonth_le m.date.year m.date.month
  rw [utcText_toList, year]
  unfold plainParts?
  rw [cutAt_digits yearDigits (by simp) (by decide)]
  dsimp only [bind, Option.bind]
  rw [cutAt_digits (paddedNat_digits (by omega)) (by simp) (by decide)]
  dsimp only
  rw [cutAt_digits (paddedNat_digits (by omega)) (by simp) (by decide)]
  dsimp only
  rw [cutAt_digits (paddedNat_digits (by omega)) (by simp) (by decide)]
  dsimp only
  rw [cutAt_digits (paddedNat_digits (by omega)) (by simp) (by decide)]
  dsimp only
  rw [cutAt_digits (paddedNat_digits (by omega)) (by simp) (by decide)]
  dsimp only
  rw [if_pos List.isEmpty_nil, part?_month _ (by omega) month.1, part?_day _ (by omega) day.1,
    part?_hour _ hour, part?_minute _ minute, part?_second _ second]
  cases part? yearForms (natText m.date.year.toNat).toList <;> rfl

theorem plainParts?_utcText {m : Moment} (valid : m.Valid) (four : 1000 ≤ m.date.year) :
    plainParts? m.utcText.toList = some m.onSecond := by
  have high := valid.year.2
  rw [plainParts?_utcText_eq valid, part?_year (by omega) (by omega), Option.map_some,
    Int.toNat_of_nonneg (by omega)]
  rfl

theorem plain?_utcText {m : Moment} (valid : m.Valid) (four : 1000 ≤ m.date.year) :
    plain? m.utcText = some m.onSecond := by
  rw [plain?, plainParts?_utcText valid four]
  show m.onSecond.check.toOption = _
  rw [Moment.check_eq_ok_iff.mpr valid.onSecond]
  rfl

theorem valid_of_parse {s : String} {t : Moment} (h : parse s = .ok t) : t.Valid := by
  unfold parse at h
  split at h
  · next m plain =>
    cases h
    obtain ⟨parts, -, checked⟩ := Option.bind_eq_some_iff.mp plain
    cases check : parts.check with
    | ok u =>
      rw [check] at checked
      cases checked
      exact Moment.check_ok check
    | error e =>
      rw [check] at checked
      cases checked
  · unfold iso at h
    split at h
    · cases h
    · split at h
      · cases h
      · exact Moment.check_ok h

theorem parse_utcText {m : Moment} (valid : m.Valid) (four : 1000 ≤ m.date.year) :
    parse m.utcText = .ok m.onSecond := by
  rw [parse, plain?_utcText valid four]

end LintHub.Time
