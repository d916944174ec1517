import StoryPreview.Number.Literal
import StoryPreview.Proofs.Number.Nearest
/-!
The shortest decimal of a magnitude is in its interval, so it is read as the magnitude again, with
whatever power of ten its digits are written.
-/
namespace StoryPreview

theorem tenPow_shift (k : Int) (j : Nat) :
    10 ^ k.toNat * 10 ^ j * 10 ^ (-(k + j)).toNat = 10 ^ (k + j).toNat * 10 ^ (-k).toNat := by
  rw [← Nat.pow_add, ← Nat.pow_add, ← Nat.pow_add]
  congr 1
  omega

theorem lt_tenPow_digitCount (n : Nat) : n < 10 ^ digitCount n :=
  (Nat.length_toDigits_le_iff (by decide) Nat.length_toDigits_pos).1 (Nat.le_refl _)

theorem tenPow_digitCount_le {n : Nat} (hn : n ≠ 0) : 10 ^ (digitCount n - 1) ≤ n := by
  rcases Nat.eq_zero_or_pos (digitCount n - 1) with h | h
  · rw [h]
    exact Nat.pos_of_ne_zero hn
  · by_contra hlt
    have : digitCount n ≤ digitCount n - 1 :=
      (Nat.length_toDigits_le_iff (by decide) h).2 (Nat.lt_of_not_le hlt)
    omega

theorem four_mul_two_pow (a : Nat) : 4 * 2 ^ a = 2 ^ (2 + a) := by
  rw [Nat.pow_add]

theorem Magnitude.one_eq : one = 2 ^ 1074 := rfl

theorem Magnitude.one_pos : 0 < one := Nat.pow_pos (Nat.zero_lt_succ 1)

namespace Rounding
variable {r : Rounding} {tie : Tie} {k : Int} {n : Nat}

theorem stepSize_pos (k : Int) : 0 < (stepSize k).1 ∧ 0 < (stepSize k).2 := by
  refine ⟨Nat.mul_pos (Nat.mul_pos (by decide) Magnitude.one_pos) ?_, ?_⟩
    <;> exact Nat.pow_pos (by decide)

def Contains (r : Rounding) (d : Decimal) : Prop := r.holds (stepSize d.exponent) d.digits = true

theorem contains_shift (r : Rounding) (n : Nat) (k : Int) (j : Nat) :
    r.Contains ⟨n * 10 ^ j, k⟩ ↔ r.Contains ⟨n, k + j⟩ := by
  unfold Contains
  rw [holds_iff, holds_iff]
  refine admits_congr (stepSize_pos k).2 (stepSize_pos (k + j)).2 ?_
  simp only [stepSize, Nat.pow_eq]
  generalize Magnitude.one = u
  calc n * 10 ^ j * (4 * u * 10 ^ k.toNat) * 10 ^ (-(k + j)).toNat
      = n * (4 * u) * (10 ^ k.toNat * 10 ^ j * 10 ^ (-(k + j)).toNat) := by ring
    _ = n * (4 * u) * (10 ^ (k + j).toNat * 10 ^ (-k).toNat) := by rw [tenPow_shift]
    _ = n * (4 * u * 10 ^ (k + j).toNat) * 10 ^ (-k).toNat := by ring

theorem holds_of_onGrid? (h : r.onGrid? tie k = some n) : r.holds (stepSize k) n = true := by
  unfold onGrid? at h
  generalize stepSize k = step at h ⊢
  simp only at h
  split at h
  · cases h
    split <;> split <;> assumption
  · cases h
    assumption
  · cases h
    assumption
  · cases h

/-- A grid that is finer than the distance from the lower end to the centre has a point in
between. -/
theorem onGrid?_of_fine {w : Nat} (low : r.low + w ≤ r.centre) (high : r.centre < r.high)
    (fine : (stepSize k).1 ≤ w * (stepSize k).2) : (r.onGrid? tie k).isSome = true := by
  obtain ⟨ha, hb⟩ := stepSize_pos k
  have split := Nat.div_add_mod (r.centre * (stepSize k).2) (stepSize k).1
  have rest := Nat.mod_lt (r.centre * (stepSize k).2) ha
  rw [Nat.mul_comm (stepSize k).1] at split
  have wide : r.low * (stepSize k).2 + w * (stepSize k).2 ≤ r.centre * (stepSize k).2 := by
    rw [← Nat.add_mul]
    exact Nat.mul_le_mul_right _ low
  have top : r.centre * (stepSize k).2 < r.high * (stepSize k).2 :=
    Nat.mul_lt_mul_of_pos_right high hb
  have below : r.holds (stepSize k) (r.centre * (stepSize k).2 / (stepSize k).1) = true :=
    holds_iff.2 (admits_of_lt (by omega) (by omega))
  unfold onGrid?
  simp only [below]
  split <;> simp_all

theorem contains_of_search {n : Nat} {d : Decimal} (h : r.search tie n k = some d) :
    r.Contains d := by
  induction n generalizing k with
  | zero => cases h
  | succ n ih =>
    unfold search at h
    split at h
    · rename_i digits found
      cases h
      exact holds_of_onGrid? found
    · exact ih h

theorem search_isSome {n j : Nat} (hj : j < n) (h : (r.onGrid? tie (k - j)).isSome = true) :
    (r.search tie n k).isSome = true := by
  induction n generalizing k j with
  | zero => exact absurd hj (Nat.not_lt_zero j)
  | succ n ih =>
    unfold search
    split
    · rfl
    · rename_i missing
      cases j with
      | zero =>
        rw [Int.natCast_zero, Int.sub_zero, missing] at h
        cases h
      | succ j =>
        refine ih (Nat.lt_of_succ_lt_succ hj) ?_
        rwa [Int.natCast_succ, Int.add_comm, ← Int.sub_sub] at h

end Rounding

namespace Magnitude
variable {m : Magnitude}

/-- The first digit of a magnitude stands for the power of ten below its decade. -/
theorem decade_le (hm : m.significand ≠ 0) :
    one * 10 ^ (m.decade - 1).toNat ≤ m.units * 10 ^ (-(m.decade - 1)).toNat := by
  have pos : 0 < m.units := Nat.mul_pos (Nat.pos_of_ne_zero hm) (Nat.two_pow_pos _)
  unfold decade
  split
  · rename_i h
    have quotient : m.units / one ≠ 0 := Nat.ne_of_gt (Nat.div_pos h one_pos)
    have least := tenPow_digitCount_le quotient
    have count : 0 < digitCount (m.units / one) := Nat.length_toDigits_pos
    rw [show ((digitCount (m.units / one) : Int) - 1).toNat =
      digitCount (m.units / one) - 1 by omega,
      show (-((digitCount (m.units / one) : Int) - 1)).toNat = 0 by omega, Nat.pow_zero,
      Nat.mul_one]
    exact Nat.le_trans (Nat.mul_le_mul_left one least) (Nat.mul_div_le m.units one)
  · have greatest := lt_tenPow_digitCount (one / m.units)
    rw [show (1 - (digitCount (one / m.units) : Int) - 1).toNat = 0 by omega,
      show (-(1 - (digitCount (one / m.units) : Int) - 1)).toNat = digitCount (one / m.units) by
      omega, Nat.pow_zero, Nat.mul_one, Nat.mul_comm]
    exact Nat.le_of_lt ((Nat.div_lt_iff_lt_mul pos).1 greatest)

/-- Eighteen powers of ten below its decade, the grid is finer than the interval of a magnitude. -/
theorem fine_of_decade (hm : m.significand ≠ 0) :
    (Rounding.stepSize (m.decade - 18)).1 ≤
      2 ^ m.exponent * (Rounding.stepSize (m.decade - 18)).2 := by
  have first := decade_le hm
  have shift := tenPow_shift (m.decade - 18) 17
  rw [show m.decade - 18 + (17 : Nat) = m.decade - 1 by omega] at shift
  simp only [Rounding.stepSize, Nat.pow_eq]
  generalize 10 ^ (m.decade - 18).toNat = P at shift ⊢
  generalize 10 ^ (-(m.decade - 18)).toNat = Q at shift ⊢
  generalize 10 ^ (m.decade - 1).toNat = P' at first shift
  have positive : 0 < 10 ^ (-(m.decade - 1)).toNat := Nat.pow_pos (by decide)
  generalize 10 ^ (-(m.decade - 1)).toNat = Q' at first shift positive
  have bound : m.units ≤ 2 ^ 53 * 2 ^ m.exponent :=
    Nat.mul_le_mul_right _ (Nat.le_of_lt m.significand_lt)
  generalize one = u at first ⊢
  refine Nat.le_of_mul_le_mul_right (c := 10 ^ 17 * Q') ?_ (Nat.mul_pos (by decide) positive)
  calc 4 * u * P * (10 ^ 17 * Q') = 4 * (u * (P * 10 ^ 17 * Q')) := by ring
    _ = 4 * (u * P' * Q) := by rw [shift, Nat.mul_assoc]
    _ ≤ 4 * (m.units * Q' * Q) := Nat.mul_le_mul_left 4 (Nat.mul_le_mul_right Q first)
    _ ≤ 4 * (2 ^ 53 * 2 ^ m.exponent * Q' * Q) :=
      Nat.mul_le_mul_left 4 (Nat.mul_le_mul_right Q (Nat.mul_le_mul_right Q' bound))
    _ = 4 * 2 ^ 53 * (2 ^ m.exponent * Q * Q') := by ring
    _ ≤ 10 ^ 17 * (2 ^ m.exponent * Q * Q') := Nat.mul_le_mul_right _ (by decide)
    _ = 2 ^ m.exponent * Q * (10 ^ 17 * Q') := by ring

theorem rounding_centre (hm : m.significand ≠ 0) :
    m.rounding.low + 2 ^ m.exponent ≤ m.rounding.centre ∧
    m.rounding.centre < m.rounding.high := by
  have pos : 0 < 2 ^ m.exponent := Nat.two_pow_pos _
  simp only [rounding, Nat.pow_eq]
  constructor
  · rw [← Nat.succ_mul]
    refine Nat.mul_le_mul_right _ ?_
    split <;> omega
  · exact Nat.mul_lt_mul_of_pos_right (by omega) pos

theorem rounding_low_pos (hm : m.significand ≠ 0) : 0 < m.rounding.low := by
  refine Nat.mul_pos ?_ (Nat.two_pow_pos _)
  split <;> omega

/-- The shortest decimal of a magnitude rounds to it. -/
theorem contains_shortest (hm : m.significand ≠ 0) (tie : Tie) :
    m.rounding.Contains (m.shortest tie) := by
  obtain ⟨low, high⟩ := rounding_centre hm
  have found : (m.rounding.search tie 20 m.decade).isSome = true :=
    Rounding.search_isSome (j := 18) (Nat.lt_of_sub_eq_succ rfl)
      (Rounding.onGrid?_of_fine low high (fine_of_decade hm))
  obtain ⟨d, hd⟩ := Option.isSome_iff_exists.1 found
  rw [shortest, if_neg hm, hd]
  exact Rounding.contains_of_search hd

theorem digits_ne_zero (hm : m.significand ≠ 0) {d : Decimal} (h : m.rounding.Contains d) :
    d.digits ≠ 0 := by
  intro hz
  have low := (Rounding.holds_iff.1 h).low_le
  rw [hz, Nat.zero_mul] at low
  exact absurd low (Nat.not_le.2 (Nat.mul_pos (rounding_low_pos hm) (Rounding.stepSize_pos _).2))

/-- No decimal from `1e310` on is in an interval. -/
theorem exponent_lt (hm : m.significand ≠ 0) {d : Decimal} (h : m.rounding.Contains d) :
    d.exponent < 310 := by
  by_contra hlt
  have digits := Nat.pos_of_ne_zero (digits_ne_zero hm h)
  have high := (Rounding.holds_iff.1 h).le_high
  simp only [Rounding.stepSize, Nat.pow_eq, show (-d.exponent).toNat = 0 by omega, Nat.pow_zero,
    Nat.mul_one] at high
  have greatest : m.rounding.high ≤ 2 ^ 55 * 2 ^ 2045 := by
    refine Nat.mul_le_mul ?_ (Nat.pow_le_pow_right (by decide) m.exponent_le)
    have := m.significand_lt
    simp only [Nat.pow_eq] at this
    omega
  have tens : 2 ^ 1025 ≤ 10 ^ d.exponent.toNat :=
    calc 2 ^ 1025 ≤ 2 ^ (205 * 5) := Nat.pow_le_pow_right (by decide) (by decide)
      _ = (2 ^ 205) ^ 5 := Nat.pow_mul 2 205 5
      _ ≤ (10 ^ 62) ^ 5 := Nat.pow_le_pow_left (by decide) 5
      _ = 10 ^ (62 * 5) := (Nat.pow_mul 10 62 5).symm
      _ ≤ 10 ^ d.exponent.toNat := Nat.pow_le_pow_right (by decide) (by omega)
  have least : 4 * one * 2 ^ 1025 ≤ m.rounding.high :=
    Nat.le_trans (Nat.mul_le_mul_left _ tens) (Nat.le_trans (Nat.le_mul_of_pos_left _ digits) high)
  have powers (a b c e : Nat) (h : 4 * 2 ^ a * 2 ^ b ≤ 2 ^ c * 2 ^ e) : 2 + a + b ≤ c + e := by
    rwa [four_mul_two_pow, ← Nat.pow_add, ← Nat.pow_add, Nat.pow_le_pow_iff_right (by decide)] at h
  rw [one_eq] at least
  exact absurd (powers 1074 1025 55 2045 (Nat.le_trans least greatest)) (by decide)

/-- No decimal below `1e-400` is in an interval. -/
theorem le_exponent (hm : m.significand ≠ 0) {d : Decimal} (h : m.rounding.Contains d) :
    -400 ≤ d.exponent + digitCount d.digits := by
  by_contra hlt
  have low := (Rounding.holds_iff.1 h).low_le
  simp only [Rounding.stepSize, Nat.pow_eq, show d.exponent.toNat = 0 by omega, Nat.pow_zero,
    Nat.mul_one] at low
  have tens : 10 ^ (399 + digitCount d.digits) ≤ d.digits * (4 * one) :=
    calc 10 ^ (399 + digitCount d.digits) ≤ 10 ^ (-d.exponent).toNat :=
            Nat.pow_le_pow_right (by decide) (by omega)
      _ ≤ m.rounding.low * 10 ^ (-d.exponent).toNat :=
        Nat.le_mul_of_pos_left _ (rounding_low_pos hm)
      _ ≤ d.digits * (4 * one) := low
  have count : 10 ^ 399 * 10 ^ digitCount d.digits < (4 * one) * 10 ^ digitCount d.digits := by
    rw [← Nat.pow_add]
    refine Nat.lt_of_le_of_lt tens ?_
    rw [Nat.mul_comm]
    exact Nat.mul_lt_mul_of_pos_left (lt_tenPow_digitCount d.digits)
      (Nat.mul_pos (by decide) one_pos)
  have powers : 2 ^ (2 + 1074) ≤ 10 ^ 399 :=
    calc 2 ^ (2 + 1074) ≤ 2 ^ (9 * 133) := Nat.pow_le_pow_right (by decide) (by decide)
      _ = (2 ^ 9) ^ 133 := Nat.pow_mul 2 9 133
      _ ≤ (10 ^ 3) ^ 133 := Nat.pow_le_pow_left (by decide) 133
      _ = 10 ^ (3 * 133) := (Nat.pow_mul 10 3 133).symm
  have least := Nat.lt_of_mul_lt_mul_right count
  rw [one_eq, four_mul_two_pow] at least
  exact absurd least (Nat.not_lt.2 powers)

end Magnitude

theorem Double.ofQuotient_eq {m : Magnitude} {n d : Nat}
    (h : Magnitude.nearest? (n * Magnitude.one) d = some m) (negative : Bool) :
    ofQuotient negative n d = .finite negative m := by
  rw [ofQuotient, h]
  rfl

/-- A decimal in the interval of a magnitude is read as the magnitude. -/
theorem Double.ofDecimal_of_contains {m : Magnitude} (hm : m.significand ≠ 0) {d : Decimal}
    (h : m.rounding.Contains d) (negative : Bool) :
    ofDecimal negative d.digits d.exponent = .finite negative m := by
  have fits : ¬ d.exponent + digitCount d.digits < -400 := Int.not_lt.2 (Magnitude.le_exponent hm h)
  have admits := Rounding.holds_iff.1 h
  have same : d.digits * (4 * Magnitude.one * Nat.pow 10 d.exponent.toNat) =
      4 * (d.digits * Nat.pow 10 d.exponent.toNat * Magnitude.one) := by
    generalize Magnitude.one = u
    ring
  rw [Rounding.stepSize, same] at admits
  rw [ofDecimal, if_neg (Magnitude.digits_ne_zero hm h),
    if_neg (Int.not_le.2 (Magnitude.exponent_lt hm h)), if_neg fits]
  exact ofQuotient_eq (Magnitude.nearest?_of_admits hm (Nat.pow_pos (by decide)) admits) negative

end StoryPreview
