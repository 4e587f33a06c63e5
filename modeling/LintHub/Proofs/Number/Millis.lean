import Mathlib.Algebra.Group.Nat.Defs
import LintHub.Time.Span

/-! # Whole milliseconds

The milliseconds of a span are taken from a floating-point number. For spans below a hundred years
that number has bits to spare, so that rounding never reaches the next millisecond. For spans of whole
milliseconds it is exact up to `2 ^ 53` of them.
-/

namespace LintHub

/-! ## Rounding -/

theorem roundHalfEven_spec (numerator : Nat) {denominator : Nat} (pos : 0 < denominator) :
    numerator / denominator ≤ roundHalfEven numerator denominator ∧
      2 * (denominator * roundHalfEven numerator denominator) ≤ 2 * numerator + denominator := by
  have whole := Nat.div_add_mod numerator denominator
  have rest := Nat.mod_lt numerator pos
  unfold roundHalfEven
  dsimp only
  split
  · exact ⟨Nat.le_refl _, by omega⟩
  · next large =>
    have up : 2 * (denominator * (numerator / denominator + 1)) ≤ 2 * numerator + denominator := by
      rw [Nat.mul_add, Nat.mul_one]
      omega
    split
    · exact ⟨Nat.le_succ _, up⟩
    · split
      · exact ⟨Nat.le_refl _, by omega⟩
      · exact ⟨Nat.le_succ _, up⟩

/-- What needs no rounding stays. -/
theorem roundHalfEven_mul (q : Nat) {d : Nat} (pos : 0 < d) : roundHalfEven (q * d) d = q := by
  unfold roundHalfEven
  dsimp only
  rw [Nat.mul_div_cancel q pos, Nat.mul_mod_left, if_pos (by omega)]

/-- What the guessed exponent is compared by, whatever power both sides are scaled with. -/
theorem reached_iff {n d i j : Nat} {guess : Int} (diff : (j : Int) - i = guess) :
    (if 0 ≤ guess then decide (d * Nat.pow 2 guess.toNat ≤ n)
      else decide (d ≤ n * Nat.pow 2 (-guess).toNat)) = true ↔ d * 2 ^ j ≤ n * 2 ^ i := by
  split
  · have hj : j = guess.toNat + i := by omega
    rw [decide_eq_true_eq, hj, Nat.pow_add, ← Nat.mul_assoc,
      Nat.mul_le_mul_right_iff (Nat.two_pow_pos i)]
    rfl
  · have hi : i = (-guess).toNat + j := by omega
    rw [decide_eq_true_eq, hi, Nat.pow_add, ← Nat.mul_assoc,
      Nat.mul_le_mul_right_iff (Nat.two_pow_pos j)]
    rfl

/-- A fraction lies between the power of two that was found and the next one. -/
theorem floorLog2_spec {n d i j : Nat} (hn : 0 < n) (hd : 0 < d)
    (diff : (j : Int) - i = floorLog2 n d) :
    d * 2 ^ j ≤ n * 2 ^ i ∧ n * 2 ^ i < d * 2 ^ (j + 1) := by
  have n_low := Nat.log2_self_le (Nat.ne_of_gt hn)
  have n_high := Nat.lt_log2_self (n := n)
  have d_low := Nat.log2_self_le (Nat.ne_of_gt hd)
  have d_high := Nat.lt_log2_self (n := d)
  unfold floorLog2 at diff
  dsimp only at diff
  by_cases reached : (if 0 ≤ (n.log2 : Int) - d.log2 then
      decide (d * Nat.pow 2 ((n.log2 : Int) - d.log2).toNat ≤ n)
    else decide (d ≤ n * Nat.pow 2 (-((n.log2 : Int) - d.log2)).toNat)) = true
  · rw [if_pos reached] at diff
    refine ⟨(reached_iff diff).mp reached, ?_⟩
    calc n * 2 ^ i < 2 ^ (n.log2 + 1) * 2 ^ i := Nat.mul_lt_mul_of_pos_right n_high (Nat.two_pow_pos i)
      _ = 2 ^ d.log2 * 2 ^ (j + 1) := by rw [← Nat.pow_add, ← Nat.pow_add]; congr 1; omega
      _ ≤ d * 2 ^ (j + 1) := Nat.mul_le_mul_right _ d_low
  · rw [if_neg reached] at diff
    have next : ((j + 1 : Nat) : Int) - i = (n.log2 : Int) - d.log2 := by omega
    rw [reached_iff next, Nat.not_le] at reached
    refine ⟨?_, reached⟩
    calc d * 2 ^ j ≤ 2 ^ (d.log2 + 1) * 2 ^ j := Nat.mul_le_mul_right _ (Nat.le_of_lt d_high)
      _ = 2 ^ n.log2 * 2 ^ i := by rw [← Nat.pow_add, ← Nat.pow_add]; congr 1; omega
      _ ≤ n * 2 ^ i := Nat.mul_le_mul_right _ n_low

namespace Binary64

/-- The whole part of a number with `k` bits behind the point. -/
theorem truncate?_signed (negative : Bool) {m k : Nat} {e : Int} (fits : IsBinary64 m e)
    (exponent : e = -(k : Int)) : (finite negative m e fits).truncate? =
      some (if negative then -((m / 2 ^ k : Nat) : Int) else ((m / 2 ^ k : Nat) : Int)) := by
  have scaled : scaleTwo m e = (m, 2 ^ k) := by
    rw [scaleTwo, exponent]
    split
    · obtain rfl : k = 0 := by omega
      exact Prod.ext (Nat.mul_one m) rfl
    · rw [Int.neg_neg, Int.toNat_natCast]
      rfl
  unfold truncate? toRatio?
  dsimp only
  rw [scaled]
  cases negative with
  | false => exact congrArg some (Int.ofNat_tdiv m (2 ^ k))
  | true =>
    show some (Int.tdiv (-(m : Int)) ((2 ^ k : Nat) : Int)) = some (-((m / 2 ^ k : Nat) : Int))
    rw [Int.neg_tdiv, ← Int.ofNat_tdiv]

theorem truncate?_finite {m k : Nat} {e : Int} (fits : IsBinary64 m e) (exponent : e = -(k : Int)) :
    (finite false m e fits).truncate? = some ((m / 2 ^ k : Nat) : Int) :=
  truncate?_signed false fits exponent

theorem truncate?_zero (d : Nat) : (ofRatio false 0 d).truncate? = some 0 := by
  obtain ⟨k, least⟩ : ∃ k : Nat, k = 1074 := ⟨1074, rfl⟩
  rw [ofRatio, if_pos rfl, truncate?_finite (k := k) zero_fits (by omega), Nat.zero_div]
  rfl

/-- The whole part of a rounded fraction with at least one bit behind the point. -/
theorem truncate?_ofRatio {n d k : Nat} (hn : 0 < n) (hd : 0 < d)
    (log : floorLog2 n d = 52 - (k : Int)) (low : 2 ≤ k) (high : k ≤ 1074) :
    (ofRatio false n d).truncate? = some ((roundHalfEven (n * 2 ^ k) d / 2 ^ k : Nat) : Int) := by
  obtain ⟨least, most⟩ := floorLog2_spec (i := k) (j := 52) hn hd (by omega)
  obtain ⟨below, above⟩ := roundHalfEven_spec (n * 2 ^ k) hd
  have m_low : 2 ^ 52 ≤ roundHalfEven (n * 2 ^ k) d := by
    refine Nat.le_trans ?_ below
    rw [Nat.le_div_iff_mul_le hd, Nat.mul_comm]
    exact least
  have m_high : roundHalfEven (n * 2 ^ k) d ≤ 2 ^ 53 := by
    have : d * roundHalfEven (n * 2 ^ k) d < d * (2 ^ 53 + 1) := by
      rw [Nat.mul_add]
      omega
    exact Nat.lt_succ_iff.mp (Nat.lt_of_mul_lt_mul_left this)
  have exponent : max (-1074) (floorLog2 n d - 52) = -(k : Int) := by omega
  have fraction : ¬ (0 : Int) ≤ -(k : Int) := by omega
  unfold ofRatio
  rw [if_neg (Nat.ne_of_gt hn), exponent]
  dsimp only
  rw [if_neg fraction, Int.neg_neg, Int.toNat_natCast]
  change (if roundHalfEven (n * 2 ^ k) d = 2 ^ 53 then ofParts false (2 ^ 52) (-(k : Int) + 1)
    else ofParts false (roundHalfEven (n * 2 ^ k) d) (-(k : Int))).truncate? = _
  split
  · next carry =>
    have fits : IsBinary64 (2 ^ 52) (-(k : Int) + 1) :=
      ⟨by decide, by omega, by omega, .inl (Nat.le_refl _)⟩
    rw [ofParts, dif_pos fits, truncate?_finite fits (k := k - 1) (by omega), carry]
    congr 2
    obtain ⟨k, rfl⟩ : ∃ k', k = k' + 1 := ⟨k - 1, by omega⟩
    rw [Nat.add_sub_cancel, Nat.pow_succ 2 k, Nat.pow_succ 2 52,
      Nat.mul_div_mul_right _ _ (by decide)]
  · next inside =>
    have fits : IsBinary64 (roundHalfEven (n * 2 ^ k) d) (-(k : Int)) :=
      ⟨by show _ < 2 ^ 53; omega, by omega, by omega, .inl m_low⟩
    rw [ofParts, dif_pos fits, truncate?_finite fits rfl]

/-- The exponent that is found for a whole number. -/
theorem floorLog2_whole {n d : Nat} (hn : 0 < n) (hd : 0 < d) :
    ∃ j : Nat, floorLog2 (n * d) d = j ∧ 2 ^ j ≤ n ∧ n < 2 ^ (j + 1) := by
  have pos := Nat.mul_pos hn hd
  have nonneg : 0 ≤ floorLog2 (n * d) d := Int.not_lt.mp fun under => by
    obtain ⟨i, log⟩ : ∃ i : Nat, floorLog2 (n * d) d = -((i + 1 : Nat) : Int) :=
      ⟨(-floorLog2 (n * d) d - 1).toNat, by omega⟩
    obtain ⟨-, most⟩ := floorLog2_spec (i := i + 1) (j := 0) pos hd (by omega)
    rw [Nat.mul_comm n d, Nat.mul_assoc] at most
    have less := Nat.lt_of_mul_lt_mul_left most
    have bit := Nat.mul_le_mul hn (Nat.pow_le_pow_right (show 0 < 2 by decide) (Nat.le_add_left 1 i))
    omega
  obtain ⟨j, log⟩ := Int.eq_ofNat_of_zero_le nonneg
  obtain ⟨least, most⟩ := floorLog2_spec (i := 0) (j := j) pos hd (by omega)
  rw [Nat.pow_zero, Nat.mul_one, Nat.mul_comm n d] at least most
  exact ⟨j, log, Nat.le_of_mul_le_mul_left least hd, Nat.lt_of_mul_lt_mul_left most⟩

/-- A whole number of up to 53 bits is its own rounding. -/
theorem truncate?_whole (negative : Bool) {n d : Nat} (hd : 0 < d) (small : n ≤ 2 ^ 53) :
    (ofRatio negative (n * d) d).truncate? = some (if negative then -(n : Int) else n) := by
  rcases Nat.eq_zero_or_pos n with rfl | hn
  · obtain ⟨k, least⟩ : ∃ k : Nat, k = 1074 := ⟨1074, rfl⟩
    rw [Nat.zero_mul, ofRatio, if_pos rfl, truncate?_signed (k := k) negative zero_fits (by omega),
      Nat.zero_div]
  · obtain ⟨j, log, low, high⟩ := floorLog2_whole hn hd
    have few : j ≤ 53 := (Nat.pow_le_pow_iff_right (by decide)).mp (Nat.le_trans low small)
    unfold ofRatio
    rw [if_neg (Nat.ne_of_gt (Nat.mul_pos hn hd)), log]
    dsimp only
    rcases Nat.lt_or_eq_of_le few with within | rfl
    · obtain ⟨k, bits⟩ : ∃ k, j + k = 52 := ⟨52 - j, by omega⟩
      have exponent : max (-1074) ((j : Int) - 52) = -(k : Int) := by omega
      have mantissa : (if 0 ≤ -(k : Int) then
            roundHalfEven (n * d) (d * Nat.pow 2 (-(k : Int)).toNat)
          else roundHalfEven (n * d * Nat.pow 2 (-(-(k : Int))).toNat) d) = n * 2 ^ k := by
        split
        · obtain rfl : k = 0 := by omega
          have one : d * Nat.pow 2 (-((0 : Nat) : Int)).toNat = d := Nat.mul_one d
          rw [one, Nat.pow_zero, Nat.mul_one]
          exact roundHalfEven_mul n hd
        · rw [Int.neg_neg, Int.toNat_natCast, Nat.mul_right_comm]
          exact roundHalfEven_mul (n * 2 ^ k) hd
      have least : 2 ^ 52 ≤ n * 2 ^ k := by
        rw [← bits, Nat.pow_add]
        exact Nat.mul_le_mul_right _ low
      have most : n * 2 ^ k < 2 ^ 53 := by
        rw [show 53 = j + 1 + k by omega, Nat.pow_add]
        exact Nat.mul_lt_mul_of_pos_right high (Nat.two_pow_pos k)
      have fits : IsBinary64 (n * 2 ^ k) (-(k : Int)) := ⟨most, by omega, by omega, .inl least⟩
      have carried : n * 2 ^ k ≠ Nat.pow 2 53 := Nat.ne_of_lt most
      rw [exponent, mantissa, if_neg carried, ofParts, dif_pos fits,
        truncate?_signed negative fits rfl, Nat.mul_div_cancel n (Nat.two_pow_pos k)]
    · obtain rfl : n = 2 ^ 53 := Nat.le_antisymm small low
      have exponent : max (-1074) (((53 : Nat) : Int) - 52) = 1 := by decide
      have mantissa : roundHalfEven (2 ^ 53 * d) (d * Nat.pow 2 (1 : Int).toNat) = 2 ^ 52 := by
        have halves : 2 ^ 53 * d = 2 ^ 52 * (d * Nat.pow 2 (1 : Int).toNat) := by
          show 2 ^ 53 * d = 2 ^ 52 * (d * 2)
          omega
        rw [halves]
        exact roundHalfEven_mul _ (Nat.mul_pos hd (by decide))
      have carried : (2 : Nat) ^ 52 ≠ Nat.pow 2 53 := by decide
      have fits : IsBinary64 (2 ^ 52) 1 := ⟨by decide, by decide, by decide, .inl (Nat.le_refl _)⟩
      rw [exponent, if_pos (show (0 : Int) ≤ 1 by decide), mantissa, if_neg carried, ofParts,
        dif_pos fits]
      cases negative <;> rfl

end Binary64

/-! ## Spans -/

namespace Time.Span

/-- A hundred years of 365 days and a quarter. -/
def centuryMicros : Int := 36525 * microsPerDay

/-- With eleven bits behind the point what is lost of a millisecond is less than what is left of it:
a whole millisecond is a thousand, and the rest is at most 999. -/
theorem round_thousandths {n k : Nat} (enough : 11 ≤ k) :
    roundHalfEven (n * 2 ^ k) 1000 / 2 ^ k = n / 1000 := by
  obtain ⟨below, above⟩ := roundHalfEven_spec (n * 2 ^ k) (show 0 < 1000 by decide)
  have bits : 2 ^ 11 ≤ 2 ^ k := Nat.pow_le_pow_right (by decide) enough
  have split : n * 2 ^ k = 1000 * (n / 1000 * 2 ^ k) + n % 1000 * 2 ^ k := by
    rw [← Nat.mul_assoc, ← Nat.add_mul, Nat.div_add_mod]
  have rest : n % 1000 * 2 ^ k ≤ 999 * 2 ^ k := Nat.mul_le_mul_right _ (by omega)
  generalize roundHalfEven (n * 2 ^ k) 1000 = m at below above ⊢
  rw [Nat.div_eq_iff (Nat.two_pow_pos k)]
  constructor
  · refine Nat.le_trans ?_ below
    omega
  · have : m < (n / 1000 + 1) * 2 ^ k := by
      rw [Nat.add_mul, Nat.one_mul]
      omega
    rw [Nat.add_mul, Nat.one_mul] at this
    omega

theorem millis_eq {s : Span} (nonneg : 0 ≤ s.micros) (short : s.micros < centuryMicros) :
    s.millis = s.micros / 1000 := by
  obtain ⟨n, micros⟩ : ∃ n : Nat, s.micros = n := ⟨s.micros.toNat, by omega⟩
  have bound : n < 1000 * 2 ^ 42 := by
    unfold centuryMicros microsPerDay at short
    omega
  unfold millis
  rw [micros, Binary64.ofSignedRatio, decide_eq_false (by omega), Int.natAbs_natCast]
  rcases Nat.eq_zero_or_pos n with rfl | pos
  · rw [Binary64.truncate?_zero]
    rfl
  · have high : floorLog2 n 1000 ≤ 41 := Int.not_lt.mp fun above => by
      obtain ⟨least, -⟩ := floorLog2_spec (i := 0) (j := (floorLog2 n 1000).toNat) pos
        (show 0 < 1000 by decide) (by omega)
      have : 2 ^ 42 ≤ 2 ^ (floorLog2 n 1000).toNat := Nat.pow_le_pow_right (by decide) (by omega)
      omega
    have low : -20 ≤ floorLog2 n 1000 := Int.not_lt.mp fun under => by
      obtain ⟨-, most⟩ := floorLog2_spec (i := (-floorLog2 n 1000).toNat) (j := 0) pos
        (show 0 < 1000 by decide) (by omega)
      have large : 2 ^ 20 ≤ 2 ^ (-floorLog2 n 1000).toNat :=
        Nat.pow_le_pow_right (by decide) (by omega)
      have : 1 * 2 ^ (-floorLog2 n 1000).toNat ≤ n * 2 ^ (-floorLog2 n 1000).toNat :=
        Nat.mul_le_mul_right _ pos
      omega
    rw [Binary64.truncate?_ofRatio (k := (52 - floorLog2 n 1000).toNat) pos (by decide) (by omega)
      (by omega) (by omega), round_thousandths (by omega)]
    exact Int.natCast_ediv n 1000

/-- Whole milliseconds are told exactly up to `2 ^ 53` of them. -/
theorem millis_whole {s : Span} {n : Int} (micros : s.micros = n * 1000)
    (small : n.natAbs ≤ 2 ^ 53) : s.millis = n := by
  have size : (n * 1000).natAbs = n.natAbs * 1000 := Int.natAbs_mul n 1000
  unfold millis
  rw [micros, Binary64.ofSignedRatio, size, Binary64.truncate?_whole _ (by decide) small,
    Option.getD_some]
  split
  · next negative =>
    rw [decide_eq_true_eq] at negative
    omega
  · next positive =>
    rw [decide_eq_true_eq] at positive
    omega

end Time.Span

end LintHub
