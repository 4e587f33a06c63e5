import Mathlib.Data.List.Basic
import LintHub.Proofs.Time.Plain
import LintHub.Proofs.Text.Utf8

/-! # Which moments survive their text

The text form writes a year with the digits that it has, and reading asks for four of them. So a
moment is read back from its text if in UTC it lies in the years 1000 to 9999, and the text of one in
the years 1 to 999 is refused.
-/

namespace LintHub.Time

open Text

/-! ## Years -/

/-- The microseconds at which a year begins in UTC. -/
def yearStart (year : Int) : Int :=
  (daysBeforeYear year + 1) * microsPerDay

theorem daysBeforeYear_mono {y z : Int} (le : y ≤ z) : daysBeforeYear y ≤ daysBeforeYear z := by
  unfold daysBeforeYear
  dsimp only
  omega

theorem yearStart_mono {y z : Int} (le : y ≤ z) : yearStart y ≤ yearStart z := by
  have days := daysBeforeYear_mono le
  unfold yearStart microsPerDay
  omega

/-- By induction on the months that follow. -/
theorem daysBeforeMonth_mono (year : Int) {month : Nat} (pos : 1 ≤ month) (k : Nat) :
    daysBeforeMonth year month ≤ daysBeforeMonth year (month + k) := by
  induction k with
  | zero => exact Nat.le_refl _
  | succ k ih =>
    have next := daysBeforeMonth_succ year (show 1 ≤ month + k by omega)
    rw [← Nat.add_assoc, next]
    omega

/-- A day lies between the first days of its year and of the next one. -/
theorem Date.Valid.dayNumber_bounds {d : Date} (valid : d.Valid) :
    daysBeforeYear d.year < d.dayNumber ∧ d.dayNumber ≤ daysBeforeYear (d.year + 1) := by
  obtain ⟨⟨first, last⟩, ⟨low, high⟩⟩ := valid
  have after := daysBeforeMonth_mono d.year (show 1 ≤ d.month + 1 by omega) (12 - d.month)
  rw [show d.month + 1 + (12 - d.month) = 13 by omega, daysBeforeMonth_all,
    daysBeforeMonth_succ d.year first] at after
  have next := daysBeforeYear_succ d.year
  unfold Date.dayNumber
  omega

namespace Moment

variable {m u t : Moment} {year : Int}

theorem Valid.localMicros_bounds (valid : m.Valid) :
    yearStart m.date.year ≤ m.localMicros ∧ m.localMicros < yearStart (m.date.year + 1) := by
  obtain ⟨low, high⟩ := valid.date.dayNumber_bounds
  have hour := valid.hour
  have minute := valid.minute
  have second := valid.second
  have micro := valid.micro
  unfold yearStart localMicros microsPerDay
  omega

theorem Valid.le_year_iff (valid : m.Valid) : year ≤ m.date.year ↔ yearStart year ≤ m.localMicros := by
  obtain ⟨low, high⟩ := valid.localMicros_bounds
  constructor
  · intro le
    have start := yearStart_mono le
    omega
  · intro reached
    by_contra less
    have start := yearStart_mono (show m.date.year + 1 ≤ year by omega)
    omega

theorem utcMicros_eq (utc : m.offset = 0) : m.utcMicros = m.localMicros := by
  rw [utcMicros, utc, Int.sub_zero]

/-- A moment in UTC is one of its year. -/
theorem Valid.le_year_utc (valid : m.Valid) (utc : m.offset = 0) :
    year ≤ m.date.year ↔ yearStart year ≤ m.utcMicros := by
  rw [valid.le_year_iff, utcMicros_eq utc]

theorem ofUtcMicros_eq_error_iff {micros : Int} : ofUtcMicros micros = .error .outOfRange ↔
    ¬ (yearStart 1 ≤ micros ∧ micros < yearStart 10000) := by
  obtain ⟨valid, number⟩ := Date.ofDayNumber_spec (micros / microsPerDay)
  obtain ⟨low, high⟩ := valid.dayNumber_bounds
  rw [number] at low high
  unfold ofUtcMicros
  dsimp only
  generalize Date.ofDayNumber (micros / microsPerDay) = date at low high ⊢
  have first : date.year < 1 ↔ micros < yearStart 1 := by
    have early := @daysBeforeYear_mono (date.year + 1) 1
    have late := @daysBeforeYear_mono 1 date.year
    unfold yearStart microsPerDay at *
    omega
  have last : 9999 < date.year ↔ yearStart 10000 ≤ micros := by
    have early := @daysBeforeYear_mono (date.year + 1) 10000
    have late := @daysBeforeYear_mono 10000 date.year
    unfold yearStart microsPerDay at *
    omega
  split
  · next out =>
    simp only [Bool.or_eq_true, decide_eq_true_eq, first, last] at out
    simp only [true_iff]
    omega
  · next within =>
    simp only [Bool.or_eq_true, decide_eq_true_eq, first, last] at within
    simp only [reduceCtorEq, false_iff, not_not]
    omega

theorem ofUtcMicros_ok_iff {micros : Int} :
    (∃ u, ofUtcMicros micros = .ok u) ↔ yearStart 1 ≤ micros ∧ micros < yearStart 10000 := by
  rw [← not_iff_not, ← ofUtcMicros_eq_error_iff]
  unfold ofUtcMicros
  dsimp only
  split <;> simp

theorem Valid.toUtc_eq_error_iff (valid : m.Valid) : m.toUtc = .error .outOfRange ↔
    ¬ (yearStart 1 ≤ m.utcMicros ∧ m.utcMicros < yearStart 10000) := by
  unfold toUtc
  split
  · next utc =>
    have first := (valid.le_year_utc utc).mp valid.year.1
    have early : ¬ (10000 : Int) ≤ m.date.year := by
      have most := valid.year.2
      omega
    have last := (valid.le_year_utc utc).not.mp early
    simp only [reduceCtorEq, false_iff, not_not]
    omega
  · exact ofUtcMicros_eq_error_iff

theorem toUtc_error {e : MomentError} (h : m.toUtc = .error e) : e = .outOfRange := by
  unfold toUtc ofUtcMicros at h
  dsimp only at h
  split at h
  · cases h
  · split at h
    · cases h
      rfl
    · cases h

theorem Valid.toUtc_ok (valid : m.Valid) (first : yearStart 1 ≤ m.utcMicros)
    (last : m.utcMicros < yearStart 10000) : ∃ u, m.toUtc = .ok u := by
  cases moved : m.toUtc with
  | ok u => exact ⟨u, rfl⟩
  | error e =>
    rw [toUtc_error moved] at moved
    exact (valid.toUtc_eq_error_iff.mp moved ⟨first, last⟩).elim

end Moment

/-! ## Texts that are refused -/

theorem length_of_fits {ms : List Mark} {cs : List Char} (h : fits ms cs = true) :
    ms.length = cs.length := by
  fun_induction fits ms cs with
  | case1 => rfl
  | case2 m ms c cs ih =>
    rw [Bool.and_eq_true] at h
    simp [ih h.2]
  | case3 => cases h

theorem part?_year_short {n : Nat} (short : n < 1000) :
    part? yearForms (natText n).toList = none := by
  have three : (natText n).length ≤ 3 := (natText_length_le_iff (by decide)).mpr short
  rw [part?, if_neg]
  rw [List.any_eq_true]
  rintro ⟨form, mem, fit⟩
  rw [List.mem_singleton.mp mem] at fit
  have four := length_of_fits fit
  simp only [List.length_cons, List.length_nil, String.length_toList] at four
  omega

/-- The byte behind some ASCII characters is the one of the character there. -/
theorem byte_of_ascii {s : String} {front rest : List Char} {c : Char}
    (split : s.toList = front ++ c :: rest) (ascii : ∀ d ∈ front, d.toNat < 128)
    (last : c.toNat < 128) : (Tape.mk s.toUTF8.data).byte front.length = c.toNat := by
  have bytes : front.flatMap String.utf8EncodeChar = front.map fun d => UInt8.ofNat d.toNat := by
    rw [List.map_eq_flatMap]
    exact List.flatMap_congr fun d mem => utf8EncodeChar_ascii (ascii d mem)
  have there : s.toUTF8.data[front.length]? = some (UInt8.ofNat c.toNat) := by
    rw [← Array.getElem?_toList, toUTF8_data, split, List.flatMap_append, bytes, List.flatMap_cons,
      utf8EncodeChar_ascii last, List.getElem?_append_right (by simp)]
    simp
  unfold Tape.byte
  rw [Array.getD_eq_getD_getElem?, there, Option.getD_some, toNat_byte (by omega)]

theorem number?_eq_none {t : Tape} {i count k : Nat} (within : k < count)
    (other : t.isDigit (i + k) = false) : t.number? i count = none := by
  unfold Tape.number?
  rw [if_neg]
  rw [List.all_eq_true]
  intro digits
  have digit := digits k (List.mem_range.mpr within)
  rw [other] at digit
  cases digit

/-- A date in the ISO form begins with four digits. -/
theorem isoParts?_eq_none {t : Tape} {k : Nat} (within : k < 4) (other : t.isDigit k = false) :
    isoParts? t = none := by
  have none (stop : Nat) : isoDate? t stop = none := by
    unfold isoDate?
    rw [number?_eq_none within (by rwa [Nat.zero_add])]
    rfl
  unfold isoParts?
  split
  · rfl
  · cases dateEnd? t with
    | none => rfl
    | some stop =>
      dsimp only [bind, Option.bind]
      rw [none]

theorem parse_early {m : Moment} (valid : m.Valid) (early : m.date.year < 1000) :
    parse m.utcText = .error (.malformed m.utcText) := by
  have first := valid.year.1
  have short := part?_year_short (show m.date.year.toNat < 1000 by omega)
  have plain : plain? m.utcText = none := by
    rw [plain?, plainParts?_utcText_eq valid, short]
    rfl
  have three : (natText m.date.year.toNat).length ≤ 3 :=
    (natText_length_le_iff (by decide)).mpr (by omega)
  have digits : ∀ c ∈ (intText m.date.year).toList, c.isDigit = true := by
    rw [intText_toList, if_neg (by omega)]
    exact fun c => isDigit_toDigits
  have length : (intText m.date.year).toList.length < 4 := by
    rw [intText, if_neg (by omega), show m.date.year.natAbs = m.date.year.toNat by omega,
      String.length_toList]
    omega
  have dash := byte_of_ascii (utcText_toList m)
    (fun c mem => by have range := range_of_isDigit (digits c mem); omega) (by decide)
  have other : (Tape.mk m.utcText.toUTF8.data).isDigit (intText m.date.year).toList.length =
      false := by
    unfold Tape.isDigit
    rw [dash]
    rfl
  rw [parse, plain]
  unfold iso
  rw [isoParts?_eq_none length other]

end LintHub.Time
