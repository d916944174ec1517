import Mathlib.Algebra.Order.Field.Basic
import Mathlib.Algebra.Order.Field.Power
import Mathlib.Algebra.Order.Ring.Rat
import Mathlib.Tactic.Linarith
import Mathlib.Tactic.Positivity
import StoryPreview.Proofs.Number.Shortest
/-!
Reading rounds correctly. A literal has an exact value, and no finite number lies nearer to that
than the number that is read; infinity is read exactly if the value lies half a step or more past
the greatest number. The distances are compared among whole numbers of units first, with the middle
between two neighbours as the end of an interval.
-/
namespace StoryPreview

namespace Magnitude
variable {m m' : Magnitude} {n d : Nat}

theorem units_eq (m : Magnitude) : m.units = m.significand * 2 ^ m.exponent := rfl

theorem units_add_le (h : m.units < m'.units) : m.units + 2 ^ m.exponent ≤ m'.units := by
  have bound := m'.significand_lt
  rw [units_eq, units_eq] at h ⊢
  rcases Nat.lt_or_ge m'.exponent m.exponent with finer | coarser
  · have full : 2 ^ 52 ≤ m.significand := m.normal.resolve_left (by omega)
    obtain ⟨j, hj⟩ : ∃ j, m.exponent = m'.exponent + 1 + j :=
      ⟨m.exponent - m'.exponent - 1, by omega⟩
    have step : 2 ^ (m'.exponent + 1) ≤ 2 ^ m.exponent :=
      Nat.pow_le_pow_right (by decide) (by omega)
    have most : m'.significand * 2 ^ m'.exponent ≤ 2 ^ 53 * 2 ^ m'.exponent :=
      Nat.mul_le_mul_right _ (Nat.le_of_lt bound)
    have least : 2 ^ 52 * 2 ^ m.exponent ≤ m.significand * 2 ^ m.exponent :=
      Nat.mul_le_mul_right _ full
    rw [Nat.pow_succ] at step
    omega
  · obtain ⟨j, hj⟩ : ∃ j, m'.exponent = m.exponent + j := ⟨m'.exponent - m.exponent, by omega⟩
    rw [hj, Nat.pow_add, Nat.mul_left_comm, Nat.mul_comm (2 ^ m.exponent)] at h ⊢
    rw [← Nat.succ_mul]
    exact Nat.mul_le_mul_right _ (Nat.lt_of_mul_lt_mul_right h)

/-- The interval of a magnitude starts in the middle between it and the next one below, or above
that. -/
theorem middle_le_low (h : m'.units < m.units) : 2 * (m.units + m'.units) ≤ m.rounding.low := by
  have apart := units_add_le h
  have bound := m'.significand_lt
  have step : 0 < 2 ^ m.exponent := Nat.two_pow_pos _
  have below {k : Nat} (hk : 2 * m'.units + k * 2 ^ m.exponent ≤ 2 * m.units) :
      2 * (m.units + m'.units) ≤ (4 * m.significand - k) * 2 ^ m.exponent := by
    rw [Nat.sub_mul, Nat.mul_assoc, ← units_eq]
    omega
  simp only [rounding, Nat.pow_eq]
  refine below ?_
  rcases Nat.lt_or_ge m'.exponent m.exponent with finer | coarser
  · have full : 2 ^ 52 ≤ m.significand := m.normal.resolve_left (by omega)
    have halves : 2 * 2 ^ m'.exponent ≤ 2 ^ m.exponent := by
      rw [Nat.mul_comm, ← Nat.pow_succ]
      exact Nat.pow_le_pow_right (by decide) finer
    have most : m'.units ≤ (2 ^ 53 - 1) * 2 ^ m'.exponent :=
      Nat.mul_le_mul_right _ (Nat.le_sub_one_of_lt bound)
    split
    · rename_i power
      rw [units_eq m, power.1]
      omega
    · have more : (2 ^ 52 + 1) * 2 ^ m.exponent ≤ m.units := by
        refine Nat.mul_le_mul_right _ ?_
        omega
      omega
  · have step' : 2 ^ m.exponent ≤ 2 ^ m'.exponent := Nat.pow_le_pow_right (by decide) coarser
    split <;> omega

/-- It ends in the middle between the magnitude and the next one above, or below that. -/
theorem high_le_middle (h : m.units < m'.units) : m.rounding.high ≤ 2 * (m.units + m'.units) := by
  have apart := units_add_le h
  simp only [rounding, Nat.pow_eq]
  rw [Nat.add_mul, Nat.mul_assoc, ← units_eq]
  omega

theorem dist_nearest?_le (hd : 0 < d) (h : nearest? n d = some m) (m' : Magnitude) :
    |(n : Int) - m.units * d| ≤ |(n : Int) - m'.units * d| := by
  have admits := admits_of_nearest? hd h
  have split (k : Nat) : 2 * (m.units + k) * d = 2 * (m.units * d) + 2 * (k * d) := by ring
  rcases Nat.lt_trichotomy m'.units m.units with less | same | more
  · have middle := Nat.le_trans (Nat.mul_le_mul_right d (middle_le_low less)) admits.low_le
    have order : m'.units * d ≤ m.units * d := Nat.mul_le_mul_right d (Nat.le_of_lt less)
    rw [split] at middle
    refine le_trans (abs_le.2 ⟨?_, ?_⟩) (le_abs_self _) <;> omega
  · rw [same]
  · have middle := Nat.le_trans admits.le_high (Nat.mul_le_mul_right d (high_le_middle more))
    have order : m.units * d ≤ m'.units * d := Nat.mul_le_mul_right d (Nat.le_of_lt more)
    rw [split] at middle
    refine le_trans (abs_le.2 ⟨?_, ?_⟩) (neg_le_abs _) <;> omega

/-- Half a step past the greatest magnitude. -/
def limit : Nat := (2 ^ 54 - 1) * (2 ^ 970 * one)

theorem limit_eq : limit = (2 ^ 54 - 1) * 2 ^ (970 + 1074) := by rw [limit, one_eq, ← Nat.pow_add]

theorem limit_pos : 0 < limit := Nat.mul_pos (by decide) (Nat.mul_pos (Nat.two_pow_pos _) one_pos)

theorem two_pow_le {a b : Nat} (h : 2 ^ a ≤ 10 ^ b) (k : Nat) : 2 ^ (a * k) ≤ 10 ^ (b * k) := by
  rw [Nat.pow_mul, Nat.pow_mul]
  exact Nat.pow_le_pow_left h k

/-- The powers of ten between which reading has no shortcut. -/
theorem limit_le : limit ≤ 10 ^ (62 * 5) * one := by
  have tens : (2 ^ 54 - 1) * 2 ^ 970 ≤ 10 ^ (62 * 5) := by
    refine Nat.le_trans (Nat.mul_le_mul_right _ (Nat.sub_le _ 1)) ?_
    rw [← Nat.pow_add]
    exact Nat.le_trans (Nat.pow_le_pow_right (by decide) (by decide))
      (two_pow_le (a := 205) (by decide) 5)
  rw [limit, ← Nat.mul_assoc]
  exact Nat.mul_le_mul_right one tens

theorem two_mul_one_le : 2 * one ≤ 10 ^ (3 * 133) := by
  rw [one_eq, ← Nat.pow_succ']
  exact Nat.le_trans (Nat.pow_le_pow_right (by decide) (by decide))
    (two_pow_le (a := 9) (by decide) 133)

/-- No interval reaches over the limit, and the one that reaches it does not have its end. -/
theorem high_le_limit (m : Magnitude) :
    m.rounding.high ≤ 4 * limit ∧ (m.rounding.high = 4 * limit → m.rounding.closed = false) := by
  have step : 2 ^ m.exponent ≤ 2 ^ (970 + 1074 + 1) :=
    Nat.pow_le_pow_right (by decide) m.exponent_le
  have pos : 0 < 2 ^ (970 + 1074) := Nat.two_pow_pos _
  have bound := m.significand_lt
  rw [Nat.pow_succ] at step
  rw [limit_eq]
  simp only [rounding, Nat.pow_eq] at bound ⊢
  generalize 2 ^ (970 + 1074) = P at step pos ⊢
  have reach {k : Nat} (hk : 4 * m.significand + 2 ≤ k) : (4 * m.significand + 2) * 2 ^ m.exponent ≤
      k * (P * 2) :=
    Nat.mul_le_mul hk step
  constructor
  · have := reach (k := 4 * (2 ^ 53 - 1) + 2) (by omega)
    omega
  · intro full
    have top : m.significand = 2 ^ 53 - 1 := by
      by_contra other
      have := reach (k := 4 * (2 ^ 53 - 2) + 2) (by omega)
      omega
    rw [top]
    decide

/-- Exactly from the limit on there is no nearest magnitude. -/
theorem nearest?_eq_none_iff (hd : 0 < d) : nearest? n d = none ↔ limit * d ≤ n := by
  constructor
  · intro missing
    simp only [nearest?, Nat.pow_eq] at missing
    generalize he : Nat.log2 (n / d) - 52 = e at missing
    generalize hD : d * 2 ^ e = D at missing
    have hDpos : 0 < D := hD ▸ Nat.mul_pos hd (Nat.two_pow_pos _)
    obtain ⟨low, high, -⟩ := roundHalfEven_near (n := n) hDpos
    have full (pos : 0 < e) : D * 2 ^ 52 ≤ n := hD ▸ le_of_exponent hd he pos
    have normal := normal_of_exponent hd he hD
    generalize roundHalfEven n D = s at missing low high normal
    have scale (k : Nat) (hk : 970 + 1074 + k ≤ e) : 2 ^ (970 + 1074) * d * 2 ^ k ≤ D := by
      rw [← hD, Nat.mul_comm (2 ^ (970 + 1074)), Nat.mul_assoc, ← Nat.pow_add]
      exact Nat.mul_le_mul_left d (Nat.pow_le_pow_right (by decide) hk)
    rw [limit_eq, Nat.mul_assoc]
    generalize 2 ^ (970 + 1074) * d = P at scale ⊢
    split at missing
    · rename_i fits
      have past : 970 + 1074 + 2 ≤ e := by
        by_contra least
        rw [ofParts?, dif_pos ⟨fits, normal, by omega⟩] at missing
        cases missing
      have := scale 2 past
      have := full (by omega)
      omega
    · rename_i carry
      have past : 970 + 1074 + 1 ≤ e := by
        by_contra least
        rw [ofParts?, dif_pos ⟨by decide, .inr (Nat.le_refl _), by omega⟩] at missing
        cases missing
      have := scale 1 past
      have large : D * 2 ^ 53 ≤ D * s := Nat.mul_le_mul_left D (Nat.le_of_not_lt carry)
      omega
  · intro far
    cases h : nearest? n d with
    | none => rfl
    | some m =>
      have admits := admits_of_nearest? hd h
      obtain ⟨high, tight⟩ := high_le_limit m
      have most := Nat.mul_le_mul_right d high
      have reach := admits.le_high
      rw [Nat.mul_assoc] at most
      have full : m.rounding.high = 4 * limit := by
        refine Nat.eq_of_mul_eq_mul_right hd ?_
        rw [Nat.mul_assoc]
        omega
      have strict := admits.strict.resolve_left (by simp [tight full])
      omega

end Magnitude

/-! ### Exact values -/

def sign (negative : Bool) : ℚ := if negative then -1 else 1

theorem abs_sign_mul (negative : Bool) (q : ℚ) : |sign negative * q| = |q| := by
  cases negative <;> simp [sign]

namespace Double

def exact : Double → ℚ
  | .finite negative m => sign negative * (m.units / Magnitude.one)
  | _ => 0

def IsNearest (q : ℚ) : Double → Prop
  | .nan => False
  | .infinity negative => 0 < sign negative * q ∧ Magnitude.limit / Magnitude.one ≤ |q|
  | .finite negative m => |q| < Magnitude.limit / Magnitude.one ∧
      ∀ y : Double, y.isFinite = true → |q - exact (.finite negative m)| ≤ |q - y.exact|

end Double

def Literal.exact (l : Literal) : ℚ :=
  sign l.negative * (digitsValue (l.whole ++ l.fraction) * 10 ^ (l.exponent - l.fraction.length))

namespace Double
variable {q : ℚ} {negative : Bool} {n d : Nat}

theorem exists_abs_exact {y : Double} (hy : y.isFinite = true) : ∃ m :
    Magnitude, |y.exact| = m.units / Magnitude.one := by
  cases y with
  | finite negative m => exact ⟨m, by rw [exact, abs_sign_mul, abs_of_nonneg (by positivity)]⟩
  | nan => cases hy
  | infinity _ => cases hy

theorem dist_quotients {n d a u : ℚ} (hd : 0 < d) (hu : 0 < u) :
    |n / d - a / u| = |n * u - a * d| / (d * u) := by
  rw [div_sub_div _ _ hd.ne' hu.ne', abs_div, abs_of_pos (mul_pos hd hu), mul_comm d a]

/-- The nearest number among those of the same sign is the nearest of all. -/
theorem isNearest_ofQuotient (negative : Bool) (hn : 0 < n) (hd : 0 < d) :
    IsNearest (sign negative * (n / d)) (ofQuotient negative n d) := by
  have some : (0 : ℚ) < n / d := by positivity
  have unit : (0 : ℚ) < Magnitude.one := by exact_mod_cast Magnitude.one_pos
  have size : |sign negative * ((n : ℚ) / d)| = n / d := by rw [abs_sign_mul, abs_of_pos some]
  have pos : (0 : ℚ) < d := by exact_mod_cast hd
  unfold ofQuotient
  cases nearest : Magnitude.nearest? (n * Magnitude.one) d with
  | none =>
    have far := (Magnitude.nearest?_eq_none_iff hd).1 nearest
    refine ⟨?_, ?_⟩
    · cases negative <;> simpa [sign] using some
    · rw [size, div_le_div_iff₀ unit pos]
      exact_mod_cast far
  | some m =>
    have close : ¬ Magnitude.limit * d ≤ n * Magnitude.one := fun far => by
      rw [(Magnitude.nearest?_eq_none_iff hd).2 far] at nearest
      cases nearest
    refine ⟨?_, fun y hy => ?_⟩
    · rw [size, div_lt_div_iff₀ pos unit]
      exact_mod_cast Nat.lt_of_not_le close
    · obtain ⟨m', value⟩ := exists_abs_exact hy
      have dist : |(n : ℚ) * Magnitude.one - m.units * d| ≤
          |(n : ℚ) * Magnitude.one - m'.units * d| := by
        exact_mod_cast Magnitude.dist_nearest?_le hd nearest m'
      calc |sign negative * (n / d) - exact (.finite negative m)|
          = |(n : ℚ) / d - m.units / Magnitude.one| := by rw [exact, ← mul_sub, abs_sign_mul]
        _ ≤ |(n : ℚ) / d - m'.units / Magnitude.one| := by
          rw [dist_quotients pos unit, dist_quotients pos unit]
          exact div_le_div_of_nonneg_right dist (mul_pos pos unit).le
        _ = |(|sign negative * ((n : ℚ) / d)| - |y.exact|)| := by rw [size, value]
        _ ≤ |sign negative * (n / d) - y.exact| := abs_abs_sub_abs_le _ _

theorem isNearest_zero (negative : Bool) (small : 2 * |q| ≤ 1 / Magnitude.one) :
    IsNearest q (.finite negative .zero) := by
  have unit : (0 : ℚ) < 1 / Magnitude.one := one_div_pos.2 (by exact_mod_cast Magnitude.one_pos)
  have zero : exact (.finite negative .zero) = 0 := by
    have none : Magnitude.zero.units = 0 := Nat.zero_mul _
    rw [exact, none, Nat.cast_zero, zero_div, mul_zero]
  refine ⟨?_, fun y hy => ?_⟩
  · have far : 1 / (Magnitude.one : ℚ) ≤ Magnitude.limit / Magnitude.one := by
      refine div_le_div_of_nonneg_right ?_ (Nat.cast_nonneg _)
      exact_mod_cast Magnitude.limit_pos
    linarith [abs_nonneg q]
  · obtain ⟨m, value⟩ := exists_abs_exact hy
    rw [zero, sub_zero]
    rcases Nat.eq_zero_or_pos m.units with none | some
    · rw [none, Nat.cast_zero, zero_div, abs_eq_zero] at value
      rw [value, sub_zero]
    · have apart : 1 / (Magnitude.one : ℚ) ≤ |y.exact| := by
        rw [value]
        refine div_le_div_of_nonneg_right ?_ (Nat.cast_nonneg _)
        exact_mod_cast some
      have := abs_sub_abs_le_abs_sub y.exact q
      rw [abs_sub_comm] at this
      linarith

theorem tenPow_eq (k : Int) :
    (10 : ℚ) ^ k = ((10 ^ k.toNat : Nat) : ℚ) / ((10 ^ (-k).toNat : Nat) : ℚ) := by
  rcases Int.le_total 0 k with nonneg | neg
  · obtain ⟨n, rfl⟩ := Int.eq_ofNat_of_zero_le nonneg
    simp
  · obtain ⟨n, hn⟩ := Int.eq_ofNat_of_zero_le (Int.neg_nonneg_of_nonpos neg)
    obtain rfl : k = -n := by omega
    simp

/-- A decimal that is read as infinity by its exponent alone lies past the limit. -/
theorem limit_le_of_large {n : Nat} {k : Int} (hn : n ≠ 0) (large : 310 ≤ k) :
    (Magnitude.limit : ℚ) / Magnitude.one ≤ n * 10 ^ k := by
  have unit : (0 : ℚ) < Magnitude.one := by exact_mod_cast Magnitude.one_pos
  have some : (1 : ℚ) ≤ n := by exact_mod_cast Nat.pos_of_ne_zero hn
  have power : (0 : ℚ) < 10 ^ k := by positivity
  have tens : (10 : ℚ) ^ ((62 * 5 : Nat) : Int) ≤ 10 ^ k := zpow_le_zpow_right₀ (by norm_num) large
  have limit : (Magnitude.limit : ℚ) ≤ ((10 ^ (62 * 5) * Magnitude.one : Nat) : ℚ) :=
    Nat.cast_le.2 Magnitude.limit_le
  rw [Nat.cast_mul, Nat.cast_pow, ← zpow_natCast] at limit
  rw [div_le_iff₀ unit]
  calc (Magnitude.limit : ℚ) ≤ 10 ^ ((62 * 5 : Nat) : Int) * Magnitude.one := limit
    _ ≤ 10 ^ k * Magnitude.one := mul_le_mul_of_nonneg_right tens unit.le
    _ ≤ n * 10 ^ k * Magnitude.one :=
      mul_le_mul_of_nonneg_right (le_mul_of_one_le_left power.le some) unit.le

/-- A decimal that is read as zero by its exponent and its length alone is not more than half a
unit. -/
theorem small_of_digitCount {n : Nat} {k : Int} (small : k + digitCount n < -400) :
    2 * ((n : ℚ) * 10 ^ k) ≤ 1 / Magnitude.one := by
  have unit : (0 : ℚ) < Magnitude.one := by exact_mod_cast Magnitude.one_pos
  have most : (n : ℚ) ≤ 10 ^ (digitCount n : Int) := by exact_mod_cast (lt_tenPow_digitCount n).le
  have units : ((2 * Magnitude.one : Nat) : ℚ) ≤ ((10 ^ (3 * 133) : Nat) : ℚ) :=
    Nat.cast_le.2 Magnitude.two_mul_one_le
  have tens : (10 : ℚ) ^ (k + digitCount n) ≤ 10 ^ (-(3 * 133 : Nat) : Int) :=
    zpow_le_zpow_right₀ (by norm_num) (by omega)
  rw [Nat.cast_mul, Nat.cast_pow, ← zpow_natCast] at units
  rw [le_div_iff₀ unit]
  generalize ((3 * 133 : Nat) : Int) = j at units tens
  generalize (Magnitude.one : ℚ) = u at unit units ⊢
  calc 2 * (n * 10 ^ k) * u = n * 10 ^ k * (2 * u) := by ring
    _ ≤ 10 ^ (digitCount n : Int) * 10 ^ k * 10 ^ j :=
      mul_le_mul (mul_le_mul_of_nonneg_right most (by positivity)) units
        (by positivity) (by positivity)
    _ = 10 ^ (k + digitCount n) * 10 ^ j := by rw [zpow_add₀ (by norm_num), mul_comm (10 ^ k)]
    _ ≤ 10 ^ (-j) * 10 ^ j := mul_le_mul_of_nonneg_right tens (by positivity)
    _ = 1 := by rw [← zpow_add₀ (by norm_num), neg_add_cancel, zpow_zero]

/-- Also where the exponent alone decides, reading gives what rounding gives. -/
theorem isNearest_ofDecimal (negative : Bool) (n : Nat) (k : Int) :
    IsNearest (sign negative * (n * 10 ^ k)) (ofDecimal negative n k) := by
  have nonneg : (0 : ℚ) ≤ n * 10 ^ k := by positivity
  unfold ofDecimal
  split_ifs with none large small
  · refine isNearest_zero negative ?_
    rw [abs_sign_mul, none, Nat.cast_zero, zero_mul, abs_zero, mul_zero]
    exact div_nonneg zero_le_one (Nat.cast_nonneg _)
  · have value : (0 : ℚ) < n * 10 ^ k :=
      mul_pos (Nat.cast_pos.2 (Nat.pos_of_ne_zero none)) (zpow_pos (by norm_num) k)
    refine ⟨by cases negative <;> simpa [sign] using value, ?_⟩
    rw [abs_sign_mul, abs_of_nonneg nonneg]
    exact limit_le_of_large none large
  · refine isNearest_zero negative ?_
    rw [abs_sign_mul, abs_of_nonneg nonneg]
    exact small_of_digitCount small
  · rw [tenPow_eq, ← mul_div_assoc, ← Nat.cast_mul]
    have power (k : Nat) : 0 < 10 ^ k := Nat.pow_pos (by decide)
    exact isNearest_ofQuotient negative (Nat.mul_pos (Nat.pos_of_ne_zero none) (power _)) (power _)

end Double

/-- Reading rounds correctly. -/
theorem Literal.isNearest_value (l : Literal) : l.value.IsNearest l.exact :=
  Double.isNearest_ofDecimal _ _ _

end StoryPreview
