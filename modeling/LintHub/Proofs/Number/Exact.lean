import LintHub.Proofs.Number.Millis
import LintHub.Proofs.Text.Numerals
import LintHub.Number.Shortest

/-! # Numbers that read back

Which number a fraction or a decimal is rounded to depends on its value only, and a number in the
format is rounded to itself. So the shortest decimal of a number is read as that number: it was tried
before it was taken, or it is the exact value.
-/

namespace LintHub

/-! ## Fractions of one value -/

theorem roundHalfEven_scale (n d : Nat) {c : Nat} (pos : 0 < c) :
    roundHalfEven (n * c) (d * c) = roundHalfEven n d := by
  have twice : 2 * (n % d * c) = 2 * (n % d) * c := (Nat.mul_assoc ..).symm
  unfold roundHalfEven
  dsimp only
  rw [Nat.mul_div_mul_right _ _ pos, Nat.mul_mod_mul_right, twice]
  simp only [Nat.mul_lt_mul_right pos]

/-- The one power of two whose multiple and that of the next one enclose a fraction. -/
theorem floorLog2_unique {n d i j : Nat} (hn : 0 < n) (hd : 0 < d) (low : d * 2 ^ j ≤ n * 2 ^ i)
    (high : n * 2 ^ i < d * 2 ^ (j + 1)) : floorLog2 n d = (j : Int) - i := by
  -- both sides are raised until no power that is compared has a negative exponent
  obtain ⟨k, l, reach⟩ : ∃ k l : Nat, (l : Int) - (i + k : Nat) = floorLog2 n d :=
    ⟨(-floorLog2 n d).toNat, (floorLog2 n d + (i + (-floorLog2 n d).toNat : Nat)).toNat, by omega⟩
  obtain ⟨least, most⟩ := floorLog2_spec hn hd reach
  have raised (a b : Nat) : a * 2 ^ (b + k) = a * 2 ^ b * 2 ^ k := by
    rw [Nat.pow_add, Nat.mul_assoc]
  have low' : d * 2 ^ (j + k) ≤ n * 2 ^ (i + k) := by
    rw [raised, raised]
    exact Nat.mul_le_mul_right _ low
  have high' : n * 2 ^ (i + k) < d * 2 ^ (j + 1 + k) := by
    rw [raised, raised]
    exact Nat.mul_lt_mul_of_pos_right high (Nat.two_pow_pos k)
  have below : j + k < l + 1 := (Nat.pow_lt_pow_iff_right (by decide)).mp
    (Nat.lt_of_mul_lt_mul_left (Nat.lt_of_le_of_lt low' most))
  have above : l < j + 1 + k := (Nat.pow_lt_pow_iff_right (by decide)).mp
    (Nat.lt_of_mul_lt_mul_left (Nat.lt_of_le_of_lt least high'))
  omega

theorem floorLog2_scale {n d c : Nat} (hn : 0 < n) (hd : 0 < d) (hc : 0 < c) :
    floorLog2 (n * c) (d * c) = floorLog2 n d := by
  obtain ⟨i, j, reach⟩ : ∃ i j : Nat, (j : Int) - i = floorLog2 n d :=
    ⟨(-floorLog2 n d).toNat, (floorLog2 n d).toNat, by omega⟩
  obtain ⟨least, most⟩ := floorLog2_spec hn hd reach
  rw [← reach]
  refine floorLog2_unique (Nat.mul_pos hn hc) (Nat.mul_pos hd hc) ?_ ?_
  · rw [Nat.mul_right_comm d, Nat.mul_right_comm n]
    exact Nat.mul_le_mul_right c least
  · rw [Nat.mul_right_comm d, Nat.mul_right_comm n]
    exact Nat.mul_lt_mul_of_pos_right most hc

namespace Binary64

theorem ofRatio_scale (negative : Bool) (n : Nat) {d c : Nat} (hd : 0 < d) (hc : 0 < c) :
    ofRatio negative (n * c) (d * c) = ofRatio negative n d := by
  rcases Nat.eq_zero_or_pos n with rfl | hn
  · rw [Nat.zero_mul]
    rfl
  · unfold ofRatio
    rw [floorLog2_scale hn hd hc, if_neg (Nat.ne_of_gt (Nat.mul_pos hn hc)),
      if_neg (Nat.ne_of_gt hn)]
    dsimp only
    rw [Nat.mul_right_comm d c, Nat.mul_right_comm n c, roundHalfEven_scale _ _ hc,
      roundHalfEven_scale _ _ hc]

/-- The exponent of a number in the format, from the size of its value. -/
theorem exponent_scaleTwo {m : Nat} {e : Int} (fits : IsBinary64 m e) (pos : 0 < m) :
    max (-1074) (floorLog2 (scaleTwo m e).1 (scaleTwo m e).2 - 52) = e := by
  obtain ⟨bits, least, most, large⟩ := fits
  change m < 2 ^ 53 at bits
  change 2 ^ 52 ≤ m ∨ e = -1074 at large
  have low := Nat.log2_self_le (Nat.ne_of_gt pos)
  have high := Nat.lt_log2_self (n := m)
  have log : floorLog2 (scaleTwo m e).1 (scaleTwo m e).2 = m.log2 + e := by
    unfold scaleTwo
    split
    · next whole =>
      refine (floorLog2_unique (i := 0) (j := m.log2 + e.toNat)
        (Nat.mul_pos pos (Nat.two_pow_pos _)) Nat.one_pos ?_ ?_).trans (by omega)
      · rw [Nat.pow_add, Nat.pow_zero, Nat.one_mul, Nat.mul_one]
        exact Nat.mul_le_mul_right _ low
      · rw [show m.log2 + e.toNat + 1 = m.log2 + 1 + e.toNat by omega, Nat.pow_add _ _ e.toNat,
          Nat.pow_zero, Nat.one_mul, Nat.mul_one]
        exact Nat.mul_lt_mul_of_pos_right high (Nat.two_pow_pos _)
    · next part =>
      refine (floorLog2_unique (i := (-e).toNat) (j := m.log2) pos (Nat.two_pow_pos _) ?_ ?_).trans
        (by omega)
      · rw [Nat.mul_comm]
        exact Nat.mul_le_mul_right _ low
      · rw [Nat.mul_comm _ (2 ^ (m.log2 + 1))]
        exact Nat.mul_lt_mul_of_pos_right high (Nat.two_pow_pos _)
  have size : m.log2 < 53 := (Nat.log2_lt (Nat.ne_of_gt pos)).mpr bits
  rw [log]
  rcases large with large | rfl
  · have full : 52 ≤ m.log2 := (Nat.le_log2 (Nat.ne_of_gt pos)).mpr large
    omega
  · omega

/-- A number in the format is rounded to itself. -/
theorem ofRatio_scaleTwo (negative : Bool) {m : Nat} {e : Int} (fits : IsBinary64 m e)
    (pos : 0 < m) :
    ofRatio negative (scaleTwo m e).1 (scaleTwo m e).2 = finite negative m e fits := by
  have some : (scaleTwo m e).1 ≠ 0 := by
    unfold scaleTwo
    split
    · exact Nat.ne_of_gt (Nat.mul_pos pos (Nat.two_pow_pos _))
    · exact Nat.ne_of_gt pos
  have exact' : (if 0 ≤ e then roundHalfEven (scaleTwo m e).1 ((scaleTwo m e).2 * Nat.pow 2 e.toNat)
      else roundHalfEven ((scaleTwo m e).1 * Nat.pow 2 (-e).toNat) (scaleTwo m e).2) = m := by
    unfold scaleTwo
    split
    · rw [Nat.one_mul]
      exact roundHalfEven_mul m (Nat.two_pow_pos _)
    · exact roundHalfEven_mul m (Nat.two_pow_pos _)
  have bits : m ≠ Nat.pow 2 53 := Nat.ne_of_lt fits.1
  unfold ofRatio
  rw [if_neg some, exponent_scaleTwo fits pos]
  dsimp only
  rw [exact', if_neg bits, ofParts, dif_pos fits]

theorem ofRatio_neg (n d : Nat) : ofRatio true n d = (ofRatio false n d).neg := by
  have parts (m : Nat) (e : Int) : ofParts true m e = (ofParts false m e).neg := by
    unfold ofParts
    split <;> rfl
  unfold ofRatio
  dsimp only
  rw [parts, parts]
  by_cases zero : n = 0
  · rw [if_pos zero, if_pos zero]
    rfl
  · rw [if_neg zero, if_neg zero, apply_ite neg]

theorem ofDecimal_neg (digits : Nat) (power : Int) :
    ofDecimal true digits power = (ofDecimal false digits power).neg := by
  unfold ofDecimal
  dsimp only
  rw [ofRatio_neg, ofRatio_neg]
  simp only [apply_ite neg]
  rfl

/-! ## Decimals of one value -/

theorem size_mul_ten {d : Nat} (pos : 0 < d) :
    (Nat.toDigits 10 (d * 10)).length = (Nat.toDigits 10 d).length + 1 := by
  rw [Nat.toDigits_of_base_le (by decide) (by omega), Nat.mul_div_cancel d (by decide),
    List.length_append, List.length_singleton]

/-- The number nearest to a decimal that is within reach. -/
def ofScaled (negative : Bool) (digits : Nat) (power : Int) : Binary64 :=
  if 0 ≤ power then ofRatio negative (digits * Nat.pow 10 power.toNat) 1
  else ofRatio negative digits (Nat.pow 10 (-power).toNat)

theorem ofDecimal_eq (negative : Bool) {d : Nat} (pos : 0 < d) (power : Int) :
    ofDecimal negative d power =
      if 400 < (Nat.toDigits 10 d).length + power then infinite negative
      else if (Nat.toDigits 10 d).length + power < -400 then finite negative 0 (-1074) zero_fits
      else ofScaled negative d power := by
  unfold ofDecimal
  rw [if_neg (Nat.ne_of_gt pos)]
  rfl

/-- A zero more at the end, and a power less. -/
theorem ofScaled_mul_ten (negative : Bool) (d : Nat) (power : Int) :
    ofScaled negative (d * 10) (power - 1) = ofScaled negative d power := by
  unfold ofScaled
  by_cases whole : 0 ≤ power
  · obtain ⟨k, rfl⟩ := Int.eq_ofNat_of_zero_le whole
    rw [if_pos whole]
    cases k with
    | zero =>
      have tenth := ofRatio_scale negative d Nat.one_pos (show 0 < 10 by decide)
      rw [Nat.one_mul] at tenth
      rw [if_neg (by decide), show (-(((0 : Nat) : Int) - 1)).toNat = 1 from rfl,
        show ((0 : Nat) : Int).toNat = 0 from rfl, show Nat.pow 10 1 = 10 from rfl,
        show Nat.pow 10 0 = 1 from rfl, Nat.mul_one, tenth]
    | succ k =>
      have less : ((k + 1 : Nat) : Int) - 1 = k := by omega
      rw [less, if_pos (Int.natCast_nonneg k), Int.toNat_natCast, Int.toNat_natCast,
        Nat.mul_assoc, Nat.mul_comm 10]
      rfl
  · obtain ⟨k, rfl⟩ : ∃ k : Nat, power = -(k : Int) := ⟨power.natAbs, by omega⟩
    have more : -(-(k : Int) - 1) = ((k + 1 : Nat) : Int) := by omega
    rw [if_neg whole, if_neg (by omega), more, Int.neg_neg, Int.toNat_natCast, Int.toNat_natCast]
    exact ofRatio_scale negative d (Nat.pow_pos (by decide)) (show 0 < 10 by decide)

theorem ofDecimal_mul_ten (negative : Bool) {d : Nat} (pos : 0 < d) (power : Int) :
    ofDecimal negative (d * 10) (power - 1) = ofDecimal negative d power := by
  have size : ((Nat.toDigits 10 (d * 10)).length : Int) + (power - 1) =
      (Nat.toDigits 10 d).length + power := by
    rw [size_mul_ten pos]
    omega
  rw [ofDecimal_eq negative (Nat.mul_pos pos (by decide)), ofDecimal_eq negative pos, size,
    ofScaled_mul_ten]

theorem ofDecimal_mul_pow (negative : Bool) {d : Nat} (pos : 0 < d) (power : Int) (k : Nat) :
    ofDecimal negative (d * 10 ^ k) (power - k) = ofDecimal negative d power := by
  induction k with
  | zero => rw [Nat.pow_zero, Nat.mul_one, Int.natCast_zero, Int.sub_zero]
  | succ k ih =>
    have less : power - ((k + 1 : Nat) : Int) = power - k - 1 := by omega
    rw [less, Nat.pow_succ, ← Nat.mul_assoc,
      ofDecimal_mul_ten negative (Nat.mul_pos pos (Nat.pow_pos (by decide))), ih]

/-! ## The shortest decimal -/

/-- By induction on the zeros that may be dropped. -/
theorem ofDecimal_trim (negative : Bool) (fuel : Nat) {digits : Nat} (power : Int) :
    ofDecimal negative (Decimal.trim digits power fuel).digits
      (Decimal.trim digits power fuel).power = ofDecimal negative digits power := by
  induction fuel generalizing digits power with
  | zero => rfl
  | succ fuel ih =>
    unfold Decimal.trim
    split
    · next zero =>
      have again := ofDecimal_mul_ten negative (d := digits / 10) (by omega) (power + 1)
      rw [Nat.div_mul_cancel (Nat.dvd_of_mod_eq_zero zero.2), Int.add_sub_cancel] at again
      rw [ih, again]
    · rfl

/-- What is found by trying was accepted. -/
theorem reads_of_search {reads : Nat → Int → Bool} {n d : Nat} {lead : Int} {tried count : Nat}
    {x : Decimal} (found : Decimal.search reads n d lead tried count = some x) :
    reads x.digits x.power = true := by
  induction count generalizing tried with
  | zero => cases found
  | succ count ih =>
    unfold Decimal.search at found
    dsimp only at found
    split at found
    · next digits accepted =>
      cases found
      exact List.find?_some (p := (reads · (lead - tried))) accepted
    · exact ih found

theorem size_le_iff {n k : Nat} (pos : 0 < n) :
    (Nat.toDigits 10 n).length ≤ k ↔ n < 10 ^ k := by
  cases k with
  | zero =>
    have some := List.length_pos_iff.mpr (Nat.toDigits_ne_nil (b := 10) (n := n))
    omega
  | succ k => exact Nat.length_toDigits_le_iff (by decide) (Nat.succ_pos k)

theorem ofDecimal_within (negative : Bool) {d : Nat} {power : Int} (pos : 0 < d)
    (least : -400 ≤ (Nat.toDigits 10 d).length + power)
    (most : (Nat.toDigits 10 d).length + power ≤ 400) :
    ofDecimal negative d power = ofScaled negative d power := by
  rw [ofDecimal_eq negative pos, if_neg (by omega), if_neg (by omega)]

/-- A base of at least `2 ^ c` takes the place of `c` twos. -/
theorem two_pow_le_pow {base c k j : Nat} (bits : 2 ^ c ≤ base) (within : k ≤ c * j) :
    2 ^ k ≤ base ^ j :=
  calc 2 ^ k ≤ 2 ^ (c * j) := Nat.pow_le_pow_right (by decide) within
    _ = (2 ^ c) ^ j := Nat.pow_mul 2 c j
    _ ≤ base ^ j := Nat.pow_le_pow_left bits j

/-- A whole number in the format, with all its digits. -/
theorem ofDecimal_whole (negative : Bool) {m k : Nat} (fits : IsBinary64 m k) (pos : 0 < m) :
    ofDecimal negative (m * 2 ^ k) 0 = finite negative m k fits := by
  have scaled := ofRatio_scaleTwo negative fits pos
  rw [scaleTwo, if_pos (Int.natCast_nonneg k), Int.toNat_natCast] at scaled
  obtain ⟨j, reach⟩ : ∃ j, j = 324 := ⟨324, rfl⟩
  have few : (Nat.toDigits 10 (m * 2 ^ k)).length ≤ 16 + j := by
    rw [size_le_iff (Nat.mul_pos pos (Nat.two_pow_pos k))]
    have exponent : k ≤ 3 * j := by
      have most := fits.2.2.1
      omega
    calc m * 2 ^ k < 2 ^ 53 * 2 ^ k := Nat.mul_lt_mul_of_pos_right fits.1 (Nat.two_pow_pos k)
      _ ≤ 10 ^ 16 * 10 ^ j :=
        Nat.mul_le_mul (by decide) (two_pow_le_pow (by decide) exponent)
      _ = 10 ^ (16 + j) := (Nat.pow_add ..).symm
  rw [ofDecimal_within negative (Nat.mul_pos pos (Nat.two_pow_pos k)) (by omega) (by omega),
    ofScaled, if_pos (Int.le_refl 0), show (0 : Int).toNat = 0 from rfl,
    show Nat.pow 10 0 = 1 from rfl, Nat.mul_one]
  exact scaled

/-- A number with `k` bits behind the point has `k` decimal places. -/
theorem ofDecimal_places (negative : Bool) {m k : Nat} (fits : IsBinary64 m (-(k : Int)))
    (pos : 0 < m) (part : 0 < k) :
    ofDecimal negative (m * 5 ^ k) (-(k : Int)) = finite negative m (-(k : Int)) fits := by
  have some : 0 < m * 5 ^ k := Nat.mul_pos pos (Nat.pow_pos (by decide))
  have scaled := ofRatio_scaleTwo negative fits pos
  rw [scaleTwo, if_neg (by omega), Int.neg_neg, Int.toNat_natCast] at scaled
  have most : (Nat.toDigits 10 (m * 5 ^ k)).length ≤ 16 + k := by
    rw [size_le_iff some]
    calc m * 5 ^ k < 2 ^ 53 * 5 ^ k := Nat.mul_lt_mul_of_pos_right fits.1 (Nat.pow_pos (by decide))
      _ ≤ 10 ^ 16 * 10 ^ k := Nat.mul_le_mul (by decide) (Nat.pow_le_pow_left (by decide) k)
      _ = 10 ^ (16 + k) := (Nat.pow_add ..).symm
  have least : k ≤ 400 + (Nat.toDigits 10 (m * 5 ^ k)).length := by
    refine Nat.not_lt.mp fun short => ?_
    obtain ⟨r, rfl⟩ : ∃ r, k = 401 + r := ⟨k - 401, by omega⟩
    have small := (size_le_iff some).mp (show _ ≤ r by omega)
    have within : r ≤ 2 * 401 := by
      have low := fits.2.1
      omega
    -- five to the power of 401 is more than any power of two that is left
    have many : 5 ^ 401 * 5 ^ r < 2 ^ r * 5 ^ r := by
      rw [← Nat.pow_add, ← Nat.mul_pow]
      exact Nat.lt_of_le_of_lt (Nat.le_mul_of_pos_left _ pos) small
    have large : 2 ^ r ≤ 5 ^ 401 := two_pow_le_pow (by decide) within
    exact absurd (Nat.lt_of_mul_lt_mul_right many) (Nat.not_lt.mpr large)
  rw [ofDecimal_within negative some (by omega) (by omega), ofScaled, if_neg (by omega),
    Int.neg_neg, Int.toNat_natCast, show Nat.pow 10 k = 2 ^ k * 5 ^ k from Nat.mul_pow 2 5 k,
    ofRatio_scale negative m (Nat.two_pow_pos k) (Nat.pow_pos (by decide))]
  exact scaled

/-- What the shortest decimal of a number is read as, with the sign of the number. -/
theorem ofDecimal_shortest (negative : Bool) {m : Nat} {e : Int} (fits : IsBinary64 m e)
    (pos : 0 < m) :
    ofDecimal negative (shortestDecimal m e).digits (shortestDecimal m e).power =
      finite negative m e fits := by
  have unsigned : ofDecimal false (shortestDecimal m e).digits (shortestDecimal m e).power =
      finite false m e fits := by
    unfold shortestDecimal
    dsimp only
    rw [ofDecimal_trim]
    cases found : Decimal.search (fun digits power =>
        ofDecimal false digits power == ofParts false m e) (scaleTwo m e).1 (scaleTwo m e).2
        (Decimal.leadingPower (scaleTwo m e).1 (scaleTwo m e).2) 0 17 with
    | some x =>
      have reads := beq_iff_eq.mp (reads_of_search found)
      rw [Option.getD_some, reads, ofParts, dif_pos fits]
    | none =>
      rw [Option.getD_none]
      split
      · next whole =>
        obtain ⟨k, rfl⟩ := Int.eq_ofNat_of_zero_le whole
        rw [scaleTwo, if_pos whole, Int.toNat_natCast]
        exact ofDecimal_whole false fits pos
      · next part =>
        obtain ⟨k, rfl⟩ : ∃ k : Nat, e = -(k : Int) := ⟨e.natAbs, by omega⟩
        rw [Int.neg_neg, Int.toNat_natCast]
        exact ofDecimal_places false fits pos (by omega)
  cases negative with
  | false => exact unsigned
  | true => rw [ofDecimal_neg, unsigned, neg, Bool.not_false]

end Binary64

end LintHub
