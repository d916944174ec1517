import StoryPreview.Proofs.Number.Stored
/-!
Which numbers are short: all to which a decimal of at most fourteen digits rounds that has no more
than twenty-two digits behind the point. The grid of the shortest decimal is not finer than that of
any other, so it has hardly more digits.
-/
namespace StoryPreview

namespace Rounding
variable {r : Rounding} {tie : Tie} {k : Int} {n p p' q : Nat}

/-- What lies between the centre and a point of the interval belongs to the interval. -/
theorem Admits.toward (h : r.Admits p q)
    (between : r.low * q < p' ∧ p' ≤ p ∨ p ≤ p' ∧ p' < r.high * q) : r.Admits p' q := by
  unfold Admits at h ⊢
  split at h <;> rename_i closed <;> simp only [closed, if_true, Bool.false_eq_true, if_false]
    <;> omega

/-- A grid with a point in the interval has one next to the centre. -/
theorem onGrid?_of_holds (low : r.low < r.centre) (high : r.centre < r.high)
    (h : r.holds (stepSize k) n = true) : (r.onGrid? tie k).isSome = true := by
  obtain ⟨ha, hb⟩ := stepSize_pos k
  have split := Nat.div_add_mod (r.centre * (stepSize k).2) (stepSize k).1
  have rest := Nat.mod_lt (r.centre * (stepSize k).2) ha
  rw [Nat.mul_comm (stepSize k).1] at split
  have bottom : r.low * (stepSize k).2 < r.centre * (stepSize k).2 :=
    Nat.mul_lt_mul_of_pos_right low hb
  have top : r.centre * (stepSize k).2 < r.high * (stepSize k).2 :=
    Nat.mul_lt_mul_of_pos_right high hb
  have admits := holds_iff.1 h
  unfold onGrid?
  generalize hq : r.centre * (stepSize k).2 / (stepSize k).1 = q at split
  rcases Nat.lt_or_ge q n with above | below
  · have next : r.holds (stepSize k) (q + 1) = true := by
      have more : (q + 1) * (stepSize k).1 ≤ n * (stepSize k).1 := Nat.mul_le_mul_right _ above
      rw [Nat.succ_mul] at more
      refine holds_iff.2 (admits.toward (.inl ?_))
      rw [Nat.succ_mul]
      omega
    simp only [hq, next]
    split <;> simp_all
  · have here : r.holds (stepSize k) q = true := by
      have more : n * (stepSize k).1 ≤ q * (stepSize k).1 := Nat.mul_le_mul_right _ below
      exact holds_iff.2 (admits.toward (.inr (by omega)))
    simp only [hq, here]
    split <;> simp_all

/-- The search does not go past a grid with a point in the interval. -/
theorem search_least {n j : Nat} (hj : j < n) (h : (r.onGrid? tie (k - j)).isSome = true) :
    ∃ d, r.search tie n k = some d ∧ k - j ≤ d.exponent := by
  induction n generalizing k j with
  | zero => exact absurd hj (Nat.not_lt_zero j)
  | succ n ih =>
    unfold search
    split
    · exact ⟨_, rfl, Int.sub_le_self k (Int.natCast_nonneg j)⟩
    · rename_i missing
      cases j with
      | zero =>
        rw [Int.natCast_zero, Int.sub_zero, missing] at h
        cases h
      | succ j =>
        have shift : k - ((j + 1 : Nat) : Int) = k - 1 - j := by omega
        rw [shift] at h ⊢
        exact ih (Nat.lt_of_succ_lt_succ hj) h

end Rounding

namespace Magnitude
variable {m : Magnitude} {d : Decimal}

/-- The interval of a magnitude goes from more than half of it to less than twice of it. -/
theorem rounding_width (hm : m.significand ≠ 0) : m.rounding.centre = 4 * m.units ∧
    2 * m.units ≤ m.rounding.low ∧ m.rounding.high ≤ 6 * m.units := by
  have scale (a b : Nat) : a * (b * 2 ^ m.exponent) = a * b * 2 ^ m.exponent :=
    (Nat.mul_assoc _ _ _).symm
  simp only [rounding, units, Nat.pow_eq, scale]
  refine ⟨trivial, Nat.mul_le_mul_right _ ?_, Nat.mul_le_mul_right _ ?_⟩
  · split <;> omega
  · omega

/-- A decimal in the interval, counted in quarters of a unit. -/
theorem bounds_of_contains (hm : m.significand ≠ 0) (h : m.rounding.Contains d) :
    m.units * 10 ^ (-d.exponent).toNat ≤ 2 * (d.digits * (one * 10 ^ d.exponent.toNat)) ∧
      2 * (d.digits * (one * 10 ^ d.exponent.toNat)) ≤
        3 * (m.units * 10 ^ (-d.exponent).toNat) := by
  obtain ⟨-, low, high⟩ := rounding_width hm
  have admits := Rounding.holds_iff.1 h
  have least := Nat.le_trans (Nat.mul_le_mul_right _ low) admits.low_le
  have greatest := Nat.le_trans admits.le_high (Nat.mul_le_mul_right _ high)
  simp only [Rounding.stepSize, Nat.pow_eq] at least greatest
  have quarters : d.digits * (4 * one * 10 ^ d.exponent.toNat) =
    4 * (d.digits * (one * 10 ^ d.exponent.toNat)) := by ring
  rw [quarters, Nat.mul_assoc] at least greatest
  omega

/-- Of two decimals in the interval the coarser one has not many more digits. -/
theorem digits_le_of_coarser (hm : m.significand ≠ 0) {n n' : Nat} {k : Int} {j : Nat}
    (h : m.rounding.Contains ⟨n, k⟩) (h' : m.rounding.Contains ⟨n', k + j⟩) :
    n' * 10 ^ j ≤ 3 * n := by
  have fine := bounds_of_contains hm h
  have coarse := bounds_of_contains hm ((Rounding.contains_shift _ n' k j).2 h')
  simp only at fine coarse
  have positive : 0 < one * 10 ^ k.toNat := Nat.mul_pos one_pos (Nat.pow_pos (by decide))
  refine Nat.le_of_mul_le_mul_right (c := one * 10 ^ k.toNat) ?_ positive
  rw [Nat.mul_assoc 3]
  omega

/-- A grid with a point in the interval is not coarser than the decade. -/
theorem exponent_le_decade (hm : m.significand ≠ 0) (h : m.rounding.Contains d) :
    d.exponent ≤ m.decade := by
  have digits := Nat.pos_of_ne_zero (digits_ne_zero hm h)
  obtain ⟨-, greatest⟩ := bounds_of_contains hm h
  have above := le_decade hm
  generalize d.digits = n at digits greatest
  by_contra past
  obtain ⟨j, hj⟩ : ∃ j : Nat, d.exponent = m.decade + (j + 1 : Nat) :=
    ⟨(d.exponent - m.decade - 1).toNat, by omega⟩
  have shift := tenPow_shift m.decade (j + 1)
  rw [← hj] at shift
  have power (k : Int) : 0 < 10 ^ k.toNat := Nat.pow_pos (by decide)
  have positive := Nat.mul_pos (Nat.mul_pos one_pos (power m.decade)) (power (-d.exponent))
  generalize 10 ^ d.exponent.toNat = P at *
  generalize 10 ^ (-d.exponent).toNat = Q at *
  generalize 10 ^ m.decade.toNat = P' at *
  generalize 10 ^ (-m.decade).toNat = Q' at *
  have tens : 2 * (n * 10 ^ (j + 1)) ≤ 3 := by
    refine Nat.le_of_mul_le_mul_right (c := one * P' * Q) ?_ positive
    calc 2 * (n * 10 ^ (j + 1)) * (one * P' * Q) = 2 * n * one * (P' * 10 ^ (j + 1) * Q) := by ring
      _ = 2 * (n * (one * P)) * Q' := by rw [shift]; ring
      _ ≤ 3 * (m.units * Q) * Q' := Nat.mul_le_mul_right Q' greatest
      _ = 3 * (m.units * Q') * Q := by ring
      _ ≤ 3 * (one * P') * Q := Nat.mul_le_mul_right Q (Nat.mul_le_mul_left 3 above)
      _ = 3 * (one * P' * Q) := by ring
  have ten : 10 ≤ n * 10 ^ (j + 1) :=
    Nat.le_trans (Nat.le_self_pow (Nat.succ_ne_zero j) 10) (Nat.le_mul_of_pos_left _ digits)
  omega

/-- A decimal of few digits is not far below the decade. -/
theorem decade_lt_exponent (hm : m.significand ≠ 0) (h : m.rounding.Contains d)
    (few : d.digits ≤ 10 ^ 14) : m.decade < d.exponent + 20 := by
  obtain ⟨least, -⟩ := bounds_of_contains hm h
  have below := decade_le hm
  generalize d.digits = n at few least
  by_contra past
  obtain ⟨j, hj⟩ : ∃ j : Nat, m.decade - 1 = d.exponent + (j : Nat) :=
    ⟨(m.decade - 1 - d.exponent).toNat, by omega⟩
  have far : 19 ≤ j := by omega
  have shift := tenPow_shift d.exponent j
  rw [← hj] at shift
  have power (k : Int) : 0 < 10 ^ k.toNat := Nat.pow_pos (by decide)
  have positive := Nat.mul_pos (Nat.mul_pos one_pos (power d.exponent)) (power (-(m.decade - 1)))
  generalize 10 ^ d.exponent.toNat = P at *
  generalize 10 ^ (-d.exponent).toNat = Q at *
  generalize 10 ^ (m.decade - 1).toNat = P' at *
  generalize 10 ^ (-(m.decade - 1)).toNat = Q' at *
  have tens : 10 ^ j ≤ 2 * n := by
    refine Nat.le_of_mul_le_mul_right (c := one * P * Q') ?_ positive
    calc 10 ^ j * (one * P * Q') = one * (P * 10 ^ j * Q') := by ring
      _ = one * P' * Q := by rw [shift, Nat.mul_assoc]
      _ ≤ m.units * Q' * Q := Nat.mul_le_mul_right Q below
      _ = m.units * Q * Q' := by ring
      _ ≤ 2 * (n * (one * P)) * Q' := Nat.mul_le_mul_right Q' least
      _ = 2 * n * (one * P * Q') := by ring
  have many : 10 ^ 19 ≤ 10 ^ j := Nat.pow_le_pow_right (by decide) far
  omega

/-- A number to which a decimal of at most fourteen digits rounds is short, if not too many of them
are behind the point. -/
theorem isShort_of_contains (hm : m.significand ≠ 0) (h : m.rounding.Contains d)
    (few : d.digits ≤ 10 ^ 14) (least : -22 ≤ d.exponent) (fraction : d.exponent ≤ 0) :
    m.IsShort := by
  obtain ⟨low, high⟩ := rounding_centre hm
  have reached := exponent_le_decade hm h
  have searched := decade_lt_exponent hm h few
  have pos : 0 < 2 ^ m.exponent := Nat.two_pow_pos _
  obtain ⟨j, hj⟩ : ∃ j : Nat, m.decade - j = d.exponent := ⟨(m.decade - d.exponent).toNat, by omega⟩
  -- The grid of the decimal is among those that are searched, so the shortest decimal is not on a
  -- finer one.
  have grid : (m.rounding.onGrid? .even d.exponent).isSome = true :=
    Rounding.onGrid?_of_holds (by omega) high h
  rw [← hj] at grid
  obtain ⟨s, found, coarse⟩ := Rounding.search_least (by omega : j < 20) grid
  have shortest : m.shortest .even = s := by rw [Magnitude.shortest, if_neg hm, found]; rfl
  rw [hj] at coarse
  obtain ⟨i, hi⟩ : ∃ i : Nat, s.exponent = d.exponent + i :=
    ⟨(s.exponent - d.exponent).toNat, by omega⟩
  have contains : m.rounding.Contains ⟨s.digits, d.exponent + i⟩ :=
    hi ▸ Rounding.contains_of_search found
  have digits : s.digits * 10 ^ i ≤ 3 * 10 ^ 14 :=
    Nat.le_trans (digits_le_of_coarser hm h contains) (Nat.mul_le_mul_left 3 few)
  have power : 10 ^ i ≤ 3 * 10 ^ 14 :=
    Nat.le_trans (Nat.le_mul_of_pos_left _ (Nat.pos_of_ne_zero (digits_ne_zero hm contains))) digits
  have steps : i < 15 := by
    by_contra many
    have more : 10 ^ 15 ≤ 10 ^ i := Nat.pow_le_pow_right (by decide) (Nat.le_of_not_lt many)
    omega
  rw [IsShort, written, padding, shortest]
  split
  · -- A whole number is written to its last digit, and with a zero behind the point.
    rename_i whole
    have zeros : 10 ^ (s.exponent.toNat + 1) ≤ 10 ^ (i + 1) :=
      Nat.pow_le_pow_right (by decide) (by omega)
    constructor
    · calc s.digits * 10 ^ (s.exponent.toNat + 1) ≤ s.digits * 10 ^ (i + 1) :=
        Nat.mul_le_mul_left _ zeros
        _ = s.digits * 10 ^ i * 10 := (Nat.mul_assoc _ _ _).symm
        _ ≤ 3 * 10 ^ 14 * 10 := Nat.mul_le_mul_right 10 digits
        _ ≤ 2 ^ 53 := by decide
    · change (s.exponent - ((s.exponent.toNat + 1 : Nat) : Int)).natAbs ≤ 22
      omega
  · constructor
    · have fewer : s.digits ≤ s.digits * 10 ^ i :=
        Nat.le_mul_of_pos_right _ (Nat.pow_pos (Nat.succ_pos 9))
      change s.digits * 10 ^ 0 ≤ 2 ^ 53
      omega
    · change (s.exponent - ((0 : Nat) : Int)).natAbs ≤ 22
      omega

theorem isShort_zero : zero.IsShort := by
  decide +kernel

end Magnitude

/-- The number nearest to a decimal of at most fourteen digits is short. -/
theorem Double.isShort_ofQuotient (negative : Bool) {n k : Nat} (few : n ≤ 10 ^ 14) (hk : k ≤ 22) :
    (ofQuotient negative n (10 ^ k)).IsShort := by
  have power : 0 < 10 ^ k := Nat.pow_pos (by decide)
  have small : n * Magnitude.one / 10 ^ k < 2 ^ 2000 := by
    refine Nat.lt_of_le_of_lt (Nat.div_le_self _ _) ?_
    have units : 10 ^ 14 * Magnitude.one < 2 ^ 2000 := by decide +kernel
    exact Nat.lt_of_le_of_lt (Nat.mul_le_mul_right _ few) units
  obtain ⟨m, nearest⟩ := Option.isSome_iff_exists.1 (Magnitude.nearest?_isSome power small)
  rw [ofQuotient_eq nearest]
  by_cases hm : m.significand = 0
  · rw [Magnitude.eq_zero_of_significand hm]
    exact Magnitude.isShort_zero
  · have contains : m.rounding.Contains ⟨n, -(k : Int)⟩ := by
      have admits := Magnitude.admits_of_nearest? power nearest
      have whole : (-(k : Int)).toNat = 0 := by omega
      have behind : (- -(k : Int)).toNat = k := by omega
      rw [Rounding.Contains, Rounding.holds_iff]
      simp only [Rounding.stepSize, whole, behind, Nat.pow_eq, Nat.pow_zero, Nat.mul_one]
      rwa [Nat.mul_left_comm]
    exact Magnitude.isShort_of_contains hm contains few
      (Int.neg_le_neg (Int.ofNat_le.2 hk)) (by simp)

end StoryPreview
