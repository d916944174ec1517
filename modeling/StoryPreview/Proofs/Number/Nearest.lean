import Mathlib.Tactic.Ring
import StoryPreview.Number.Shortest
/-!
The interval of a magnitude is what rounds to it: a quotient in the interval has the magnitude as
the nearest one, however the quotient is written.
-/
namespace StoryPreview

/-- Rounding gives the number whose half-unit surroundings hold the quotient; the ends count for
even numbers. -/
theorem roundHalfEven_eq {n d s : Nat} (hd : 0 < d) (low : 2 * (d * s) ≤ 2 * n + d)
    (high : 2 * n ≤ 2 * (d * s) + d)
    (strict : s % 2 = 0 ∨ 2 * (d * s) < 2 * n + d ∧ 2 * n < 2 * (d * s) + d) :
    roundHalfEven n d = s := by
  have split : d * (n / d) + n % d = n := Nat.div_add_mod n d
  have rest : n % d < d := Nat.mod_lt n hd
  generalize hq : n / d = q at split
  generalize hr : n % d = r at split rest
  have atMost : q ≤ s := by
    by_contra h
    have : d * (s + 1) ≤ d * q := Nat.mul_le_mul_left d (by omega)
    rw [Nat.mul_succ] at this
    omega
  have atLeast : s ≤ q + 1 := by
    by_contra h
    have : d * (q + 2) ≤ d * s := Nat.mul_le_mul_left d (by omega)
    rw [Nat.mul_add] at this
    omega
  unfold roundHalfEven
  simp only [hq, hr]
  rcases Nat.lt_or_ge q s with below | above
  · obtain rfl : s = q + 1 := by omega
    rw [Nat.mul_succ] at low high strict
    split_ifs <;> omega
  · obtain rfl : s = q := by omega
    split_ifs <;> omega

/-- The quotient lies within half a unit of what it is rounded to; at the ends only even numbers are
given. -/
theorem roundHalfEven_near {n d : Nat} (hd : 0 < d) : 2 * (d * roundHalfEven n d) ≤ 2 * n + d ∧
    2 * n ≤ 2 * (d * roundHalfEven n d) + d ∧
    (roundHalfEven n d % 2 = 0 ∨ 2 * (d * roundHalfEven n d) < 2 * n + d ∧
      2 * n < 2 * (d * roundHalfEven n d) + d) := by
  have split : d * (n / d) + n % d = n := Nat.div_add_mod n d
  have rest : n % d < d := Nat.mod_lt n hd
  unfold roundHalfEven
  generalize n / d = q at split ⊢
  generalize n % d = r at split rest ⊢
  have next : d * (q + 1) = d * q + d := Nat.mul_succ d q
  simp only
  split_ifs <;> omega

namespace Rounding
variable {r : Rounding} {p q p' q' : Nat}

def Admits (r : Rounding) (p q : Nat) : Prop :=
  if r.closed then r.low * q ≤ p ∧ p ≤ r.high * q else r.low * q < p ∧ p < r.high * q

theorem holds_iff {step : Nat × Nat} {n : Nat} :
    r.holds step n = true ↔ r.Admits (n * step.1) step.2 := by
  unfold holds Admits
  cases r.closed <;> simp

theorem Admits.low_le (h : r.Admits p q) : r.low * q ≤ p := by
  unfold Admits at h
  split at h
  · exact h.1
  · exact Nat.le_of_lt h.1

theorem Admits.le_high (h : r.Admits p q) : p ≤ r.high * q := by
  unfold Admits at h
  split at h
  · exact h.2
  · exact Nat.le_of_lt h.2

theorem Admits.strict (h : r.Admits p q) : r.closed = true ∨ r.low * q < p ∧ p < r.high * q := by
  unfold Admits at h
  split at h
  · exact .inl ‹_›
  · exact .inr h

theorem admits_of_lt (low : r.low * q < p) (high : p < r.high * q) : r.Admits p q := by
  unfold Admits
  split
  · exact ⟨Nat.le_of_lt low, Nat.le_of_lt high⟩
  · exact ⟨low, high⟩

theorem admits_congr (hq : 0 < q) (hq' : 0 < q') (same : p * q' = p' * q) :
    r.Admits p q ↔ r.Admits p' q' := by
  have le (x y : Nat) : x * q ≤ y * q ↔ x ≤ y := Nat.mul_le_mul_right_iff hq
  have le' (x y : Nat) : x * q' ≤ y * q' ↔ x ≤ y := Nat.mul_le_mul_right_iff hq'
  have swap (x : Nat) : x * q * q' = x * q' * q := Nat.mul_right_comm x q q'
  have low : r.low * q ≤ p ↔ r.low * q' ≤ p' := by rw [← le', swap, same, le]
  have high : p ≤ r.high * q ↔ p' ≤ r.high * q' := by rw [← le', swap, same, le]
  unfold Admits
  split
  · rw [low, high]
  · rw [← Nat.not_le, ← Nat.not_le, ← Nat.not_le, ← Nat.not_le, ← le', swap, same, le,
      ← le' (r.high * q), swap, same, le]

end Rounding

namespace Magnitude
variable {m : Magnitude} {n d : Nat}

theorem nearest?_of_round (he : Nat.log2 (n / d) - 52 = m.exponent)
    (hs : roundHalfEven n (d * 2 ^ m.exponent) = m.significand) : nearest? n d = some m := by
  simp only [nearest?, Nat.pow_eq, he, hs]
  rw [if_pos m.significand_lt, ofParts?_parts]

theorem nearest?_of_carry {e : Nat} (he : Nat.log2 (n / d) - 52 = e) (hm : m.exponent = e + 1)
    (hs : m.significand = 2 ^ 52) (hr : roundHalfEven n (d * 2 ^ e) = 2 ^ 53) :
    nearest? n d = some m := by
  simp only [nearest?, Nat.pow_eq, he, hr]
  rw [if_neg (Nat.lt_irrefl _), ← hm, ← hs, ofParts?_parts]

theorem log2_div {k : Nat} (hd : 0 < d) (low : d * 2 ^ k ≤ n) (high : n < d * 2 ^ (k + 1)) :
    Nat.log2 (n / d) = k := by
  have least : 2 ^ k ≤ n / d := (Nat.le_div_iff_mul_le hd).2 (by rwa [Nat.mul_comm])
  have greatest : n / d < 2 ^ (k + 1) := (Nat.div_lt_iff_lt_mul hd).2 (by rwa [Nat.mul_comm])
  exact (Nat.log2_eq_iff (Nat.ne_of_gt (Nat.lt_of_lt_of_le (Nat.two_pow_pos k) least))).2
    ⟨least, greatest⟩

/-- The exponent of a quotient that fits a significand with its first bit. -/
theorem exponent_eq {e D : Nat} (hd : 0 < d) (hD : d * 2 ^ e = D) (low : 2 ^ 52 * D ≤ n)
    (high : n < 2 ^ 53 * D) : Nat.log2 (n / d) - 52 = e := by
  subst hD
  have log : Nat.log2 (n / d) = 52 + e := by
    refine log2_div hd ?_ ?_
    · rwa [Nat.pow_add, Nat.mul_left_comm]
    · rwa [Nat.add_right_comm, Nat.pow_add, Nat.mul_left_comm]
  rw [log, Nat.add_sub_cancel_left]

theorem exponent_eq_zero (hd : 0 < d) (high : n < 2 ^ 53 * d) : Nat.log2 (n / d) - 52 = 0 := by
  have small : n / d < 2 ^ 53 := (Nat.div_lt_iff_lt_mul hd).2 high
  rcases Nat.eq_zero_or_pos (n / d) with zero | pos
  · rw [zero]
    decide
  · have := (Nat.log2_lt (Nat.ne_of_gt pos)).2 small
    omega

/-- Before the first magnitude of an exponent they stand half as far apart, and what is nearest to
the first one is rounded up to it. -/
theorem nearest?_before_power {e D : Nat} (hd : 0 < d) (hD : d * 2 ^ e = D)
    (hs : m.significand = 2 ^ 52) (he : m.exponent = e + 1) (low : 2 * D * (4 * 2 ^ 52 - 1) ≤ 4 * n)
    (high : n < 2 ^ 53 * D) : nearest? n d = some m := by
  have pos : 0 < D := hD ▸ Nat.mul_pos hd (Nat.two_pow_pos _)
  have exponent : Nat.log2 (n / d) - 52 = e := exponent_eq hd hD (by omega) high
  have rounded : roundHalfEven n D = 2 ^ 53 :=
    roundHalfEven_eq pos (by omega) (by omega) (.inl (by decide))
  exact nearest?_of_carry exponent he hs (hD ▸ rounded)

theorem nearest?_from_power {D : Nat} (hd : 0 < d) (hD : d * 2 ^ m.exponent = D)
    (hs : m.significand = 2 ^ 52) (low : 2 ^ 52 * D ≤ n) (high : 4 * n ≤ D * (4 * 2 ^ 52 + 2)) :
    nearest? n d = some m := by
  have pos : 0 < D := hD ▸ Nat.mul_pos hd (Nat.two_pow_pos _)
  have exponent : Nat.log2 (n / d) - 52 = m.exponent := exponent_eq hd hD low (by omega)
  have rounded : roundHalfEven n D = 2 ^ 52 :=
    roundHalfEven_eq pos (by omega) (by omega) (.inl (by decide))
  exact nearest?_of_round exponent ((hD ▸ rounded).trans hs.symm)

/-- Any other magnitude is as far from the one before as from the next. -/
theorem nearest?_of_plain {D : Nat} (hm : m.significand ≠ 0) (hd : 0 < d)
    (hD : d * 2 ^ m.exponent = D) (plain : ¬ (m.significand = 2 ^ 52 ∧ 0 < m.exponent))
    (low : D * (4 * m.significand - 2) ≤ 4 * n) (high : 4 * n ≤ D * (4 * m.significand + 2))
    (strict : m.significand % 2 = 0 ∨ D * (4 * m.significand - 2) < 4 * n ∧
      4 * n < D * (4 * m.significand + 2)) :
    nearest? n d = some m := by
  have bound := m.significand_lt
  have normal := m.normal
  simp only [Nat.pow_eq] at bound normal
  have pos : 0 < D := hD ▸ Nat.mul_pos hd (Nat.two_pow_pos _)
  have wide : D * (4 * m.significand - 2) + 2 * D = 4 * (D * m.significand) := by
    rw [Nat.mul_sub, Nat.mul_left_comm]
    have : D ≤ D * m.significand := Nat.le_mul_of_pos_right D (Nat.pos_of_ne_zero hm)
    omega
  rw [Nat.mul_add, Nat.mul_left_comm] at high strict
  have top : D * m.significand + D ≤ 2 ^ 53 * D := by
    rw [← Nat.mul_succ, Nat.mul_comm (2 ^ 53)]
    exact Nat.mul_le_mul_left D bound
  have rounded : roundHalfEven n D = m.significand :=
    roundHalfEven_eq pos (by omega) (by omega) (strict.imp_right fun strict => by omega)
  refine nearest?_of_round ?_ (hD ▸ rounded)
  rcases Nat.eq_zero_or_pos m.exponent with he | he
  · rw [he, Nat.pow_zero, Nat.mul_one] at hD
    subst hD
    rw [he]
    exact exponent_eq_zero hd (by omega)
  · have least : 2 ^ 52 * D + D ≤ D * m.significand := by
      rw [← Nat.succ_mul, Nat.mul_comm D]
      exact Nat.mul_le_mul_right D (by omega)
    exact exponent_eq hd hD (by omega) (by omega)

/-- What lies in the interval of a magnitude has it as the nearest one. -/
theorem nearest?_of_admits (hm : m.significand ≠ 0) (hd : 0 < d) (h : m.rounding.Admits (4 * n) d) :
    nearest? n d = some m := by
  have low := h.low_le
  have high := h.le_high
  have strict := h.strict
  simp only [rounding, Nat.pow_eq, beq_iff_eq] at low high strict
  generalize hD : d * 2 ^ m.exponent = D
  have scale (x : Nat) : x * 2 ^ m.exponent * d = D * x := by rw [← hD]; ring
  rw [scale] at low high
  rw [scale, scale] at strict
  by_cases power : m.significand = 2 ^ 52 ∧ 0 < m.exponent
  · rw [if_pos power] at low
    obtain ⟨hs, pos⟩ := power
    rw [hs] at low high
    rcases Nat.lt_or_ge n (2 ^ 52 * D) with below | above
    · obtain ⟨e, he⟩ := Nat.exists_eq_succ_of_ne_zero (Nat.ne_of_gt pos)
      have double : D = 2 * (d * 2 ^ e) := by rw [← hD, he, Nat.pow_succ]; ring
      generalize hD' : d * 2 ^ e = D' at double
      exact nearest?_before_power hd hD' hs he (double ▸ low) (by omega)
    · exact nearest?_from_power hd hD hs above high
  · rw [if_neg power] at low strict
    exact nearest?_of_plain hm hd hD power low high strict

/-- A quotient that does not fit a significand has all bits of one. -/
theorem le_of_exponent {e : Nat} (hd : 0 < d) (he : Nat.log2 (n / d) - 52 = e) (pos : 0 < e) :
    d * 2 ^ e * 2 ^ 52 ≤ n := by
  have some : n / d ≠ 0 := by
    rintro zero
    rw [zero] at he
    exact absurd he.symm (Nat.ne_of_gt pos)
  have least := (Nat.le_div_iff_mul_le hd).1 (Nat.log2_self_le some)
  rw [show (n / d).log2 = e + 52 by omega, Nat.pow_add] at least
  calc d * 2 ^ e * 2 ^ 52 = 2 ^ e * 2 ^ 52 * d := by ring
    _ ≤ n := least

/-- Rounded, it still has them: only an exponent of zero goes with a significand without its first
bit. -/
theorem normal_of_exponent {e D : Nat} (hd : 0 < d) (he : Nat.log2 (n / d) - 52 = e)
    (hD : d * 2 ^ e = D) : e = 0 ∨ 2 ^ 52 ≤ roundHalfEven n D := by
  refine (Nat.eq_zero_or_pos e).imp_right fun pos => ?_
  have first : D * 2 ^ 52 ≤ n := hD ▸ le_of_exponent hd he pos
  have hDpos : 0 < D := hD ▸ Nat.mul_pos hd (Nat.two_pow_pos _)
  have high := (roundHalfEven_near (n := n) hDpos).2.1
  by_contra less
  have most : D * (roundHalfEven n D + 1) ≤ D * 2 ^ 52 :=
    Nat.mul_le_mul_left D (Nat.lt_of_not_le less)
  rw [Nat.mul_succ] at most
  omega

theorem of_ofParts? {s e : Nat} (h : ofParts? s e = some m) :
    m.significand = s ∧ m.exponent = e := by
  unfold ofParts? at h
  split at h
  · cases h
    exact ⟨rfl, rfl⟩
  · cases h

/-- What has a magnitude as the nearest one lies in its interval. -/
theorem admits_of_nearest? (hd : 0 < d) (h : nearest? n d = some m) :
    m.rounding.Admits (4 * n) d := by
  simp only [nearest?, Nat.pow_eq] at h
  generalize he : Nat.log2 (n / d) - 52 = e at h
  generalize hD : d * 2 ^ e = D at h
  have hDpos : 0 < D := hD ▸ Nat.mul_pos hd (Nat.two_pow_pos _)
  have scale (x : Nat) : x * 2 ^ e * d = D * x := by rw [← hD]; ring
  have double (x : Nat) : x * 2 ^ (e + 1) * d = 2 * (D * x) := by rw [← hD]; ring
  obtain ⟨low, high, strict⟩ := roundHalfEven_near (n := n) hDpos
  generalize roundHalfEven n D = s at h low high strict
  split at h
  · obtain ⟨rfl, rfl⟩ := of_ofParts? h
    simp only [Rounding.Admits, rounding, Nat.pow_eq, beq_iff_eq, scale]
    rw [Nat.mul_add, Nat.mul_left_comm]
    by_cases power : m.significand = 2 ^ 52 ∧ 0 < m.exponent
    · -- The next magnitude below is half as far away, but what is below would have another
      -- exponent.
      rw [if_pos power]
      obtain ⟨hs, pos⟩ := power
      have first : D * 2 ^ 52 ≤ n := hD ▸ le_of_exponent hd he pos
      rw [hs] at high ⊢
      rw [if_pos (by decide)]
      omega
    · have wide : D * (4 * m.significand - 2) = 4 * (D * m.significand) - 2 * D := by
        rw [Nat.mul_sub, Nat.mul_left_comm, Nat.mul_comm D 2]
      rw [if_neg power, wide]
      split
      · omega
      · rename_i odd
        have some : D ≤ D * m.significand := Nat.le_mul_of_pos_right D (by omega)
        omega
  · -- The significand is rounded up to a power of two, which has the next exponent.
    rename_i carry
    obtain ⟨hs, hm⟩ := of_ofParts? h
    simp only [Rounding.Admits, rounding, Nat.pow_eq, beq_iff_eq, hs, hm, double]
    have most : n < D * 2 ^ 53 := by
      have greatest : n / d < 2 ^ (e + 53) :=
        Nat.lt_of_lt_of_le Nat.lt_log2_self (Nat.pow_le_pow_right (by decide) (by omega))
      rw [← hD, Nat.mul_assoc, ← Nat.pow_add, Nat.mul_comm]
      exact (Nat.div_lt_iff_lt_mul hd).1 greatest
    have large : D * 2 ^ 53 ≤ D * s := Nat.mul_le_mul_left D (Nat.le_of_not_lt carry)
    have half : (if True ∧ 0 < e + 1 then 1 else 2) = 1 := if_pos ⟨trivial, Nat.succ_pos e⟩
    rw [half, if_pos (by decide)]
    omega

theorem nearest?_isSome (hd : 0 < d) (small : n / d < 2 ^ 2000) : (nearest? n d).isSome = true := by
  simp only [nearest?, Nat.pow_eq]
  generalize he : Nat.log2 (n / d) - 52 = e
  have limit : e + 1 ≤ 2045 := by
    rcases Nat.eq_zero_or_pos (n / d) with zero | pos
    · rw [zero] at he
      exact he ▸ by decide
    · have := (Nat.log2_lt (Nat.ne_of_gt pos)).2 small
      omega
  have normal := normal_of_exponent hd he rfl
  generalize roundHalfEven n (d * 2 ^ e) = s at normal
  split
  · rename_i fits
    rw [ofParts?, dif_pos ⟨fits, normal, Nat.le_of_succ_le limit⟩]
    rfl
  · rw [ofParts?, dif_pos ⟨by decide, .inr (Nat.le_refl _), limit⟩]
    rfl

end Magnitude
end StoryPreview
