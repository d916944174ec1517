import StoryPreview.Proofs.Number.Short
/-!
What is shortest about the shortest decimal of a magnitude: no decimal in the interval stands on a
coarser grid, so the last digit is no zero, and none has fewer digits.
-/
namespace StoryPreview

theorem Rounding.Admits.between {r : Rounding} {p p' p'' q : Nat} (h : r.Admits p q)
    (h' : r.Admits p'' q) (low : p ≤ p') (high : p' ≤ p'') : r.Admits p' q := by
  unfold Rounding.Admits at h h' ⊢
  split at h <;> rename_i closed <;> simp only [closed, if_true, Bool.false_eq_true, if_false]
    at h' ⊢ <;> omega

namespace Magnitude
variable {m : Magnitude} {d : Decimal}

/-- No decimal in the interval stands on a coarser grid than the shortest. -/
theorem exponent_le_shortest (hm : m.significand ≠ 0) (h : m.rounding.Contains d) (tie : Tie) :
    d.exponent ≤ (m.shortest tie).exponent := by
  obtain ⟨low, high⟩ := rounding_centre hm
  have pos : 0 < 2 ^ m.exponent := Nat.two_pow_pos _
  have reached := exponent_le_decade hm h
  have grid : (m.rounding.onGrid? tie d.exponent).isSome = true :=
    Rounding.onGrid?_of_holds (by omega) high h
  rw [shortest, if_neg hm]
  obtain ⟨j, hj⟩ : ∃ j : Nat, m.decade - j = d.exponent := ⟨(m.decade - d.exponent).toNat, by omega⟩
  rcases Nat.lt_or_ge j 20 with near | far
  · rw [← hj] at grid ⊢
    obtain ⟨s, found, coarse⟩ := Rounding.search_least near grid
    rw [found]
    exact coarse
  · -- A grid that is finer than all that are searched is finer than the one that was found.
    obtain ⟨s, found⟩ := Option.isSome_iff_exists.1
      (Rounding.search_isSome (n := 20) (j := 18) (by decide)
        (Rounding.onGrid?_of_fine low high (fine_of_decade hm)))
    obtain ⟨i, hi, exponent, -⟩ := Rounding.of_search found
    rw [found, Option.getD_some, exponent]
    omega

/-- The digits of the shortest decimal do not end in a zero. -/
theorem shortest_digits_mod_ten (hm : m.significand ≠ 0) (tie : Tie) :
    (m.shortest tie).digits % 10 ≠ 0 := by
  intro zero
  have contains := contains_shortest hm tie
  have tens : (m.shortest tie).digits = (m.shortest tie).digits / 10 * 10 ^ 1 := by omega
  have coarser :=
    (Rounding.contains_shift m.rounding ((m.shortest tie).digits / 10) (m.shortest tie).exponent
      1).1 (tens ▸ contains)
  have := exponent_le_shortest hm coarser tie
  simp only at this
  omega

/-- No decimal in the interval has fewer digits than the shortest. -/
theorem digitCount_shortest_le (hm : m.significand ≠ 0) (h : m.rounding.Contains d) (tie : Tie) :
    digitCount (m.shortest tie).digits ≤ digitCount d.digits := by
  have contains := contains_shortest hm tie
  have coarse := exponent_le_shortest hm h tie
  have many := tenPow_digitCount_le (digits_ne_zero hm contains)
  have few := lt_tenPow_digitCount d.digits
  by_contra more
  obtain ⟨c, hc⟩ : ∃ c, digitCount (m.shortest tie).digits - 1 = c + 1 := by
    have : 0 < digitCount d.digits := Nat.length_toDigits_pos
    exact ⟨digitCount (m.shortest tie).digits - 2, by omega⟩
  have power : 10 ^ digitCount d.digits ≤ 10 ^ (c + 1) :=
    Nat.pow_le_pow_right (by decide) (by omega)
  rw [hc] at many
  rcases Int.lt_or_eq_of_le coarse with finer | same
  · obtain ⟨j, hj⟩ : ∃ j : Nat, (m.shortest tie).exponent = d.exponent + (j + 1 : Nat) :=
      ⟨((m.shortest tie).exponent - d.exponent - 1).toNat, by omega⟩
    have contains' : m.rounding.Contains ⟨(m.shortest tie).digits, d.exponent + (j + 1 : Nat)⟩ :=
      hj ▸ contains
    have bound := digits_le_of_coarser hm h contains'
    have ten : (m.shortest tie).digits * 10 ≤ (m.shortest tie).digits * 10 ^ (j + 1) :=
      Nat.mul_le_mul_left _ (Nat.le_self_pow (Nat.succ_ne_zero j) 10)
    omega
  · -- On one grid, the power of ten between two decimals of different length is in the interval
    -- too, and it has zeros at its end.
    have there := Rounding.holds_iff.1 contains
    rw [← same] at there
    have between : m.rounding.Contains ⟨1 * 10 ^ (c + 1), d.exponent⟩ := by
      refine Rounding.holds_iff.2 ((Rounding.holds_iff.1 h).between there ?_ ?_)
      · exact Nat.mul_le_mul_right _ (show d.digits ≤ 1 * 10 ^ (c + 1) by omega)
      · exact Nat.mul_le_mul_right _ (show 1 * 10 ^ (c + 1) ≤ (m.shortest tie).digits by omega)
    have := exponent_le_shortest hm
      ((Rounding.contains_shift m.rounding 1 d.exponent (c + 1)).1 between) tie
    simp only at this
    omega

end Magnitude
end StoryPreview
