import LintHub.Time.Moment

/-! # Counting days

Every day number belongs to one date, so that a moment moved to UTC is the same moment.
-/

namespace LintHub.Time

def daysInYear (year : Int) : Nat :=
  if isLeap year then 366 else 365

theorem daysBeforeYear_succ (year : Int) :
    daysBeforeYear (year + 1) = daysBeforeYear year + daysInYear year := by
  unfold daysBeforeYear daysInYear isLeap
  simp only [Bool.and_eq_true, Bool.or_eq_true, beq_iff_eq, bne_iff_ne]
  split <;> omega

/-- The year that is guessed from the mean length of a year misses by at most one. -/
theorem guess_near (n : Int) :
    daysBeforeYear ((n - 1) * 400 / 146097 + 1 - 1) < n ∧
      n ≤ daysBeforeYear ((n - 1) * 400 / 146097 + 1 + 1 + 1) := by
  unfold daysBeforeYear
  dsimp only
  omega

theorem year_bounds (n : Int) :
    daysBeforeYear (Date.ofDayNumber n).year < n ∧
      n ≤ daysBeforeYear ((Date.ofDayNumber n).year + 1) := by
  obtain ⟨low, high⟩ := guess_near n
  unfold Date.ofDayNumber
  dsimp only
  generalize (n - 1) * 400 / 146097 + 1 = guess at low high ⊢
  split
  · next before => exact ⟨low, by rwa [Int.sub_add_cancel]⟩
  · next reached =>
    split
    · next after => exact ⟨after, high⟩
    · next inside => exact ⟨Int.not_le.mp reached, Int.not_lt.mp inside⟩

theorem daysBeforeMonth_succ (year : Int) {month : Nat} (pos : 1 ≤ month) :
    daysBeforeMonth year (month + 1) = daysBeforeMonth year month + daysInMonth year month := by
  have more (ms : List Nat) (n : Nat) :
      ms.foldr (fun m days => daysInMonth year (m + 1) + days) n =
        ms.foldr (fun m days => daysInMonth year (m + 1) + days) 0 + n := by
    induction ms with
    | nil => simp
    | cons m ms ih => rw [List.foldr_cons, ih, List.foldr_cons, Nat.add_assoc]
  obtain ⟨m, rfl⟩ : ∃ m, month = m + 1 := ⟨month - 1, by omega⟩
  unfold daysBeforeMonth
  rw [Nat.add_sub_cancel, Nat.add_sub_cancel, List.range_succ, List.foldr_append, more]
  rfl

theorem daysBeforeMonth_all (year : Int) : daysBeforeMonth year 13 = daysInYear year := by
  unfold daysInYear daysBeforeMonth
  cases leap : isLeap year <;> simp [List.range, List.range.loop, daysInMonth, leap]

/-- By induction on the months that are left: the day lies before the end of the last of them. -/
theorem monthOfDay_spec (year : Int) (n month fuel : Nat) (pos : 1 ≤ month)
    (within : daysBeforeMonth year month + n < daysBeforeMonth year (month + fuel)) :
    month ≤ (monthOfDay year n month fuel).1 ∧ (monthOfDay year n month fuel).1 < month + fuel ∧
      (monthOfDay year n month fuel).2 < daysInMonth year (monthOfDay year n month fuel).1 ∧
      daysBeforeMonth year (monthOfDay year n month fuel).1 + (monthOfDay year n month fuel).2 =
        daysBeforeMonth year month + n := by
  induction fuel generalizing n month with
  | zero =>
    rw [Nat.add_zero] at within
    omega
  | succ fuel ih =>
    rw [monthOfDay]
    split
    · next inside => exact ⟨Nat.le_refl _, by omega, inside, rfl⟩
    · next beyond =>
      have next := daysBeforeMonth_succ year pos
      obtain ⟨low, high, day, sum⟩ := ih (n - daysInMonth year month) (month + 1) (by omega)
        (by rw [next, show month + 1 + fuel = month + (fuel + 1) by omega]; omega)
      exact ⟨by omega, by omega, day, by rw [sum, next]; omega⟩

/-- A month and a day that the year has. -/
structure Date.Valid (d : Date) : Prop where
  month : 1 ≤ d.month ∧ d.month ≤ 12
  day : 1 ≤ d.day ∧ d.day ≤ daysInMonth d.year d.month

theorem Date.ofDayNumber_spec (n : Int) :
    (Date.ofDayNumber n).Valid ∧ (Date.ofDayNumber n).dayNumber = n := by
  obtain ⟨low, high⟩ := year_bounds n
  have split : Date.ofDayNumber n =
      ⟨(Date.ofDayNumber n).year,
        (monthOfDay (Date.ofDayNumber n).year
          (n - daysBeforeYear (Date.ofDayNumber n).year - 1).toNat 1 12).1,
        (monthOfDay (Date.ofDayNumber n).year
          (n - daysBeforeYear (Date.ofDayNumber n).year - 1).toNat 1 12).2 + 1⟩ := rfl
  generalize (Date.ofDayNumber n).year = year at low high split
  rw [daysBeforeYear_succ] at high
  have all := daysBeforeMonth_all year
  obtain ⟨monthLow, monthHigh, day, sum⟩ := monthOfDay_spec year
    (n - daysBeforeYear year - 1).toNat 1 12 (Nat.le_refl 1)
    (by rw [show daysBeforeMonth year 1 = 0 from rfl, show 1 + 12 = 13 from rfl, all]; omega)
  rw [show daysBeforeMonth year 1 = 0 from rfl, Nat.zero_add] at sum
  rw [split]
  refine ⟨⟨⟨monthLow, by simp only; omega⟩, ⟨by simp only; omega, day⟩⟩, ?_⟩
  unfold Date.dayNumber
  simp only
  omega

end LintHub.Time
