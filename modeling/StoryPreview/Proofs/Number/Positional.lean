import StoryPreview.Proofs.Number.Reading
import StoryPreview.Proofs.Number.Short
/-!
A plus sign stands in the spellings of exactly those numbers that are not written positionally
because they are too large, and these are the numbers from `10 ^ 21` on: that is a number of its
own, so no other one is rounded over it.
-/
namespace StoryPreview

namespace AllDigits

theorem plus_notMem {ds : List Char} (h : AllDigits ds) : '+' ∉ ds :=
  fun hm => absurd (h _ hm) (by decide)

end AllDigits

theorem Layout.plus_mem_place {ds : List Char} (hd : AllDigits ds) (x : Int) :
    '+' ∈ plain.place ds x ↔ 20 < x := by
  have digits := hd.plus_notMem
  have zeros (n : Nat) : '+' ∉ List.replicate n '0' := (AllDigits.zeros n).plus_notMem
  have power : '+' ∉ Nat.toDigits 10 x.natAbs := (AllDigits.toDigits _).plus_notMem
  have first (n : Nat) : '+' ∉ ds.take n := (hd.take n).plus_notMem
  have rest (n : Nat) : '+' ∉ ds.drop n := (hd.drop n).plus_notMem
  have tail : '+' ∉ ds.tail := fun h => digits (List.mem_of_mem_tail h)
  have least : plain.least = -6 := rfl
  have greatest : plain.greatest = 20 := rfl
  unfold place
  split
  · rename_i positional
    refine iff_of_false ?_ (by omega)
    split
    · simp [zeros, digits]
    · simp only
      split
      · simp [zeros, digits, plain]
      · simp [first, rest]
  · split
    · refine iff_of_false ?_ (by omega)
      split <;> simp [first, tail, power]
    · exact iff_of_true (by simp [plain]) (by omega)

/-- Where the first digit of a decimal stands says whether the decimal reaches a power of ten. -/
theorem Decimal.reaches_iff {d : Decimal} (hd : d.digits ≠ 0) (k : Nat) :
    10 ^ k * 10 ^ (-d.exponent).toNat ≤ d.digits * 10 ^ d.exponent.toNat ↔
    k < d.exponent + digitCount d.digits := by
  have least := Nat.mul_le_mul_right (10 ^ d.exponent.toNat) (tenPow_digitCount_le hd)
  have greatest :=
    Nat.mul_lt_mul_of_pos_right (lt_tenPow_digitCount d.digits)
      (Nat.pow_pos (n := d.exponent.toNat) (by decide : 0 < 10))
  have count : 0 < digitCount d.digits := Nat.length_toDigits_pos
  rw [← Nat.pow_add] at least greatest ⊢
  constructor
  · intro reaches
    have := (Nat.pow_lt_pow_iff_right (by decide)).1 (Nat.lt_of_le_of_lt reaches greatest)
    omega
  · intro above
    exact Nat.le_trans (Nat.pow_le_pow_right (by decide) (by omega)) least

namespace Magnitude
variable {m : Magnitude}

/-- Only `10 ^ 21` has `10 ^ 21` in its interval, and it is the shortest decimal there. -/
theorem of_admits_sextillion (hm : m.significand ≠ 0)
    (h : m.rounding.Admits (4 * (10 ^ 21 * one)) 1) :
    m.units = 10 ^ 21 * one ∧ m.shortest .upward = ⟨1, 21⟩ := by
  have all : (nearest? (10 ^ 21 * one) 1).map (fun m => (m.units, m.shortest .upward)) =
      some (10 ^ 21 * one, ⟨1, 21⟩) := by decide +kernel
  rw [nearest?_of_admits hm (by decide) h] at all
  exact Prod.mk.inj (Option.some.inj all)

/-- The shortest decimal reaches `10 ^ 21` exactly if the magnitude does. -/
theorem reaches_sextillion_iff (hm : m.significand ≠ 0) {d : Decimal}
    (hd : m.shortest .upward = d) :
    10 ^ 21 * 10 ^ (-d.exponent).toNat ≤ d.digits * 10 ^ d.exponent.toNat ↔
    10 ^ 21 * one ≤ m.units := by
  have admits := Rounding.holds_iff.1 (contains_shortest hm .upward)
  obtain ⟨centre, -, -⟩ := rounding_width hm
  obtain ⟨low, high⟩ := rounding_centre hm
  have scale := Nat.two_pow_pos m.exponent
  simp only [Rounding.stepSize, Nat.pow_eq, hd] at admits
  generalize hP : 10 ^ d.exponent.toNat = P at admits
  generalize hQ : 10 ^ (-d.exponent).toNat = Q at admits
  have hQpos : 0 < Q := hQ ▸ Nat.pow_pos (by decide)
  -- If `10 ^ 21` lay between the magnitude and its decimal, then it would be in the interval, and
  -- be both of them.
  have between (h : m.rounding.low * Q < 4 * (10 ^ 21 * one) * Q ∧
      4 * (10 ^ 21 * one) * Q ≤ d.digits * (4 * one * P) ∨
      d.digits * (4 * one * P) ≤ 4 * (10 ^ 21 * one) * Q ∧
      4 * (10 ^ 21 * one) * Q < m.rounding.high * Q) : m.units = 10 ^ 21 * one ∧ d = ⟨1, 21⟩ := by
    rw [← hd]
    exact of_admits_sextillion hm ((Rounding.admits_congr hQpos Nat.one_pos (Nat.mul_one _)).1
      (admits.toward h))
  have steps : d.digits * (4 * one * P) = 4 * one * (d.digits * P) := by ring
  have point : 4 * (10 ^ 21 * one) * Q = 4 * one * (10 ^ 21 * Q) := by ring
  constructor
  · intro reaches
    by_contra below
    have under : m.rounding.low * Q < 4 * (10 ^ 21 * one) * Q :=
      Nat.mul_lt_mul_of_pos_right (by omega) hQpos
    refine below (Nat.le_of_eq (between (.inl ⟨under, ?_⟩)).1.symm)
    rw [steps, point]
    exact Nat.mul_le_mul_left _ reaches
  · intro above
    by_contra under
    have beyond : 4 * (10 ^ 21 * one) * Q < m.rounding.high * Q :=
      Nat.mul_lt_mul_of_pos_right (by omega) hQpos
    have same : d = ⟨1, 21⟩ := by
      refine (between (.inr ⟨?_, beyond⟩)).2
      rw [steps, point]
      exact Nat.mul_le_mul_left _ (Nat.le_of_not_le under)
    subst same
    simp only at hP hQ
    subst hP hQ
    exact under (by decide)

end Magnitude

namespace Double

def BelowSextillion : Double → Prop
  | .finite _ m => m.units < Nat.pow 10 21 * Magnitude.one
  | _ => False

/-- The spelling of a finite number has a plus sign exactly if the number reaches `10 ^ 21`. -/
theorem plus_notMem_spelling_iff {x : Double} (hx : x.isFinite = true) :
    '+' ∉ x.spelling ↔ x.BelowSextillion := by
  cases x with
  | nan => cases hx
  | infinity negative => cases hx
  | finite negative m =>
    by_cases hm : m.significand = 0
    · obtain rfl := Magnitude.eq_zero_of_significand hm
      refine iff_of_true (by cases negative <;> decide) ?_
      have small : Magnitude.zero.units < Nat.pow 10 21 * Magnitude.one := by decide +kernel
      exact small
    · have sign : '+' ∈ (Double.finite negative m).spelling ↔ '+' ∈ Layout.plain.magnitude m := by
        simp only [spelling, Layout.write, if_neg hm, List.mem_append]
        cases negative <;> simp
      have digits := Magnitude.digits_ne_zero hm (Magnitude.contains_shortest hm .upward)
      have reaches :=
        (Decimal.reaches_iff digits 21).symm.trans (Magnitude.reaches_sextillion_iff hm rfl)
      have tie : Layout.plain.tie = .upward := rfl
      rw [sign, Layout.magnitude, tie, Layout.plus_mem_place (AllDigits.toDigits _),
        BelowSextillion, Nat.pow_eq, ← Nat.not_le, ← reaches, digitCount]
      exact not_congr ⟨fun h => by omega, fun h => by omega⟩

end Double
end StoryPreview
