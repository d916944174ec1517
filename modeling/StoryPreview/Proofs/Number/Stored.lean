import StoryPreview.Json.Cursor
import StoryPreview.Proofs.Number.Reading
/-!
The stored spelling of a number and what is read of it. The digits that are written make a
significand below `2 ^ 64`, and reading scales it by a power of ten with one rounding for the
significand and one for each factor. A number is read as itself if neither the significand nor the
power of ten has to be rounded.
-/
namespace StoryPreview

def Leads (ds : List Char) : Prop := ds.head? = some '0' → ds.length = 1

theorem head_toDigits {n : Nat} (hn : n ≠ 0) : (Nat.toDigits 10 n).head? ≠ some '0' := by
  induction n using Nat.strong_induction_on with
  | _ n ih =>
    rcases Nat.lt_or_ge n 10 with small | large
    · rw [Nat.toDigits_of_lt_base small]
      intro head
      exact hn (Nat.digitChar_eq_zero.1 (Option.some.inj head))
    · rw [Nat.toDigits_of_base_le (by decide) large, List.head?_append]
      have first := ih (n / 10) (by omega) (by omega)
      have some : Nat.toDigits 10 (n / 10) ≠ [] := List.length_pos_iff.1 Nat.length_toDigits_pos
      cases form : Nat.toDigits 10 (n / 10) with
      | nil => exact absurd form some
      | cons d ds =>
        rw [form] at first
        exact first

theorem leads_toDigits (n : Nat) : Leads (Nat.toDigits 10 n) := by
  intro head
  by_cases hn : n = 0
  · rw [hn]
    rfl
  · exact absurd head (head_toDigits hn)

/-! ### The digits that are written -/

namespace Magnitude
variable {m : Magnitude}

def padding (m : Magnitude) : Nat :=
  let d := m.shortest .even
  if 0 ≤ d.exponent ∧ d.exponent + digitCount d.digits ≤ 16 then d.exponent.toNat + 1 else 0

def written (m : Magnitude) : Decimal :=
  ⟨(m.shortest .even).digits * 10 ^ m.padding, (m.shortest .even).exponent - m.padding⟩

theorem contains_written (hm : m.significand ≠ 0) : m.rounding.Contains m.written := by
  rw [written, Rounding.contains_shift, Int.sub_add_cancel]
  exact contains_shortest hm .even

theorem le_decade (hm : m.significand ≠ 0) :
    m.units * 10 ^ (-m.decade).toNat ≤ one * 10 ^ m.decade.toNat := by
  have pos : 0 < m.units := Nat.mul_pos (Nat.pos_of_ne_zero hm) (Nat.two_pow_pos _)
  unfold decade
  split
  · rename_i h
    have greatest := lt_tenPow_digitCount (m.units / one)
    rw [show (-(digitCount (m.units / one) : Int)).toNat = 0 by omega, Nat.pow_zero, Nat.mul_one,
      Int.toNat_natCast, Nat.mul_comm]
    exact Nat.le_of_lt ((Nat.div_lt_iff_lt_mul one_pos).1 greatest)
  · rename_i h
    have quotient : one / m.units ≠ 0 :=
      Nat.ne_of_gt (Nat.div_pos (Nat.le_of_lt (Nat.lt_of_not_le h)) pos)
    have least := tenPow_digitCount_le quotient
    have count : 0 < digitCount (one / m.units) := Nat.length_toDigits_pos
    rw [show (-(1 - (digitCount (one / m.units) : Int))).toNat =
      digitCount (one / m.units) - 1 by omega, show (1 - (digitCount (one / m.units) : Int)).toNat =
        0 by omega, Nat.pow_zero, Nat.mul_one]
    exact Nat.le_trans (Nat.mul_le_mul_left m.units least) (Nat.mul_div_le one m.units)

end Magnitude

namespace Rounding
variable {r : Rounding} {tie : Tie} {k : Int} {n : Nat}

theorem le_of_onGrid? (h : r.onGrid? tie k = some n) :
    n ≤ r.centre * (stepSize k).2 / (stepSize k).1 + 1 := by
  unfold onGrid? at h
  generalize stepSize k = step at h ⊢
  simp only at h
  split at h
  · cases h
    split_ifs <;> omega
  · cases h
    omega
  · cases h
    omega
  · cases h

theorem of_search {d : Decimal} (h : r.search tie n k = some d) :
    ∃ i < n, d.exponent = k - (i : Nat) ∧ r.onGrid? tie (k - (i : Nat)) = some d.digits := by
  induction n generalizing k with
  | zero => cases h
  | succ n ih =>
    unfold search at h
    split at h
    · rename_i digits found
      cases h
      exact ⟨0, Nat.succ_pos n, by simp, by simpa using found⟩
    · obtain ⟨i, hi, exponent, found⟩ := ih h
      have shift : k - 1 - (i : Nat) = k - ((i + 1 : Nat) : Int) := by omega
      exact ⟨i + 1, Nat.succ_lt_succ hi, shift ▸ exponent, shift ▸ found⟩

end Rounding

namespace Magnitude
variable {m : Magnitude}

theorem digits_le (hm : m.significand ≠ 0) (tie : Tie) : (m.shortest tie).digits ≤ 10 ^ 19 + 1 := by
  rw [shortest, if_neg hm]
  cases found : m.rounding.search tie 20 m.decade with
  | none => exact Nat.zero_le _
  | some d =>
    obtain ⟨i, hi, -, grid⟩ := Rounding.of_search found
    refine Nat.le_trans (Rounding.le_of_onGrid? grid)
      (Nat.add_le_add_right (Nat.div_le_of_le_mul ?_) 1)
    have below := le_decade hm
    have shift := tenPow_shift (m.decade - (i : Nat)) i
    rw [Int.sub_add_cancel] at shift
    simp only [Rounding.stepSize, Nat.pow_eq]
    have centre : m.rounding.centre = 4 * m.units := Nat.mul_assoc _ _ _
    rw [centre]
    generalize 10 ^ (m.decade - (i : Nat)).toNat = P at shift ⊢
    generalize 10 ^ (-(m.decade - (i : Nat))).toNat = Q at shift ⊢
    have positive : 0 < 10 ^ m.decade.toNat := Nat.pow_pos (by decide)
    generalize 10 ^ m.decade.toNat = P' at below shift positive
    generalize 10 ^ (-m.decade).toNat = Q' at below shift
    generalize one = u at below ⊢
    have few : 10 ^ i ≤ 10 ^ 19 := Nat.pow_le_pow_right (by decide) (Nat.le_of_lt_succ hi)
    refine Nat.le_of_mul_le_mul_right (c := P') ?_ positive
    calc 4 * m.units * Q * P' = 4 * m.units * (P' * Q) := by ring
      _ = 4 * m.units * (P * 10 ^ i * Q') := by rw [shift]
      _ = 4 * (m.units * Q') * (P * 10 ^ i) := by ring
      _ ≤ 4 * (u * P') * (P * 10 ^ 19) :=
        Nat.mul_le_mul (Nat.mul_le_mul_left 4 below) (Nat.mul_le_mul_left P few)
      _ = 4 * u * P * 10 ^ 19 * P' := by ring

theorem written_le (hm : m.significand ≠ 0) : m.written.digits ≤ Json.Cursor.naturalLimit := by
  rw [written]
  unfold padding
  simp only
  split
  · rename_i whole
    obtain ⟨exponent, count⟩ := whole
    have digits := Nat.le_of_lt (lt_tenPow_digitCount (m.shortest .even).digits)
    calc (m.shortest .even).digits * 10 ^ ((m.shortest .even).exponent.toNat + 1)
        ≤ 10 ^ digitCount (m.shortest .even).digits *
            10 ^ ((m.shortest .even).exponent.toNat + 1) :=
          Nat.mul_le_mul_right _ digits
      _ = 10 ^ (digitCount (m.shortest .even).digits + ((m.shortest .even).exponent.toNat + 1)) :=
        (Nat.pow_add _ _ _).symm
      _ ≤ 10 ^ 17 := Nat.pow_le_pow_right (by decide) (by omega)
      _ ≤ Json.Cursor.naturalLimit := by decide
  · rw [Nat.pow_zero, Nat.mul_one]
    exact Nat.le_trans (digits_le hm .even) (by decide)

end Magnitude

/-! ### The parts of a stored spelling -/

namespace Layout
variable {ds : List Char} {x : Int}

def exponentText (x : Int) : List Char :=
  'e' :: ((if x < 0 then ['-'] else ['+']) ++ Nat.toDigits 10 x.natAbs)

/-- What else there is to say about the parts of a stored number: the zeros behind its digits are
counted, no zero stands in front, there is a point or an exponent, and the exponent is that of the
first digit if there is one. -/
structure Places.IsStored {text : List Char} (p : Places ds x text) : Prop where
  trailing : p.trailing = if 0 ≤ x + 1 - ds.length ∧
    x ≤ 15 then (x + 1 - ds.length).toNat + 1 else 0
  leads : Leads p.whole
  marked : p.fraction ≠ [] ∨ p.tail ≠ []
  exponent : p.tail = [] ∧ p.exponent = 0 ∨ p.tail = exponentText x ∧ p.exponent = x

theorem exists_stored (hd : AllDigits ds) (hne : ds ≠ []) (head : ds.head? ≠ some '0') :
    ∃ p : Places ds x (stored.place ds x), p.IsStored := by
  have some : 0 < ds.length := List.length_pos_iff.2 hne
  have leads (es : List Char) : Leads (ds ++ es) := by
    intro zero
    rw [List.head?_append_of_ne_nil _ hne] at zero
    exact absurd zero head
  have taken (n : Nat) : Leads (ds.take (n + 1)) := by
    intro zero
    rw [List.head?_take, if_neg (Nat.succ_ne_zero n)] at zero
    exact absurd zero head
  by_cases positional : stored.least ≤ x ∧ x ≤ stored.greatest
  · have range : -5 ≤ x ∧ x ≤ 15 := positional
    by_cases hx : x < 0
    · have text : stored.place ds x = '0' :: '.' :: (List.replicate (-x - 1).toNat '0' ++ ds) := by
        rw [place, if_pos positional, if_pos hx]
      rw [text]
      exact ⟨placesSmall hd hne hx, (if_neg (by omega)).symm, fun _ => rfl,
        .inl (by simp [placesSmall, hne]), .inl ⟨rfl, rfl⟩⟩
    · by_cases hl : ds.length ≤ x.toNat + 1
      · have text : stored.place ds x = ds ++ List.replicate (x.toNat + 1 - ds.length)
            '0' ++ ['.', '0'] := by
          rw [place, if_pos positional, if_neg hx]
          exact if_pos hl
        rw [text]
        refine ⟨placesPoint hd hne (Int.not_lt.1 hx) hl, ?_, leads _, .inl (by simp [placesPoint]),
          .inl ⟨rfl, rfl⟩⟩
        rw [if_pos (by omega)]
        change x.toNat + 1 - ds.length + 1 = _
        omega
      · have text : stored.place ds x = ds.take (x.toNat + 1) ++ '.' :: ds.drop (x.toNat + 1) := by
          rw [place, if_pos positional, if_neg hx]
          exact if_neg hl
        rw [text]
        refine ⟨placesMixed hd (Int.not_lt.1 hx) (Nat.lt_of_not_le hl), (if_neg (by omega)).symm,
          taken _, .inl ?_, .inl ⟨rfl, rfl⟩⟩
        simpa [placesMixed] using hl
  · have range : ¬ (-5 ≤ x ∧ x ≤ 15) := positional
    have text : stored.place ds x = ds.take 1 ++ (if ds.length ≤ 1 then [] else '.' :: ds.drop 1) ++
        exponentText x :=
      if_neg positional
    rw [text]
    exact ⟨placesExponent hd hne, (if_neg (by omega)).symm, taken 0,
      .inr (by simp [placesExponent]), .inr ⟨rfl, rfl⟩⟩

/-- The parts of a stored magnitude make the decimal that is written. -/
theorem exists_written {m : Magnitude} (hm : m.significand ≠ 0) : ∃ ds x, ∃ p :
    Places ds x (stored.magnitude m),
    p.IsStored ∧ x.natAbs ≤ Json.Cursor.exponentLimit ∧
    digitsValue (p.whole ++ p.fraction) = m.written.digits ∧
      p.exponent - p.fraction.length = m.written.exponent := by
  have contains := Magnitude.contains_shortest hm .even
  have digits := Magnitude.digits_ne_zero hm contains
  have below := Magnitude.exponent_lt hm contains
  have above := Magnitude.le_exponent hm contains
  have few : digitCount (m.shortest .even).digits ≤ 20 :=
    (Nat.length_toDigits_le_iff (by decide) (by decide)).2
      (Nat.lt_of_le_of_lt (Magnitude.digits_le hm .even) (by decide))
  have count : (Nat.toDigits 10 (m.shortest .even).digits).length =
    digitCount (m.shortest .even).digits := rfl
  obtain ⟨p, isStored⟩ := exists_stored
    (x := (m.shortest .even).exponent + (Nat.toDigits 10 (m.shortest .even).digits).length - 1)
    (.toDigits (m.shortest .even).digits) (List.length_pos_iff.1 Nat.length_toDigits_pos)
      (head_toDigits digits)
  have padding : p.trailing = m.padding := by
    rw [isStored.trailing, Magnitude.padding, count]
    split_ifs <;> omega
  refine ⟨_, _, p, isStored, ?_, ?_, ?_⟩
  · have limit : 1000 ≤ Json.Cursor.exponentLimit := by decide
    omega
  · rw [p.digits, digitsValue_leading, digitsValue_zeros, digitsValue_toDigits, padding]
    rfl
  · have scale := p.scale
    rw [padding] at scale
    change _ = (m.shortest .even).exponent - (m.padding : Int)
    omega

end Layout

/-! ### What is read of it -/

def Double.reread : Double → Option Double
  | .finite negative m =>
    if m.significand = 0 then some (.finite negative m)
    else (Json.Cursor.scale (.ofNat m.written.digits) m.written.exponent).map fun x =>
      if negative then x.neg else x
  | _ => none

namespace Magnitude
variable {m : Magnitude}

theorem nearest?_of_units {n d : Nat} (hm : m.significand ≠ 0) (hd : 0 < d) (h : n = m.units * d) :
    nearest? n d = some m := by
  obtain ⟨low, high⟩ := rounding_centre hm
  have centre : m.rounding.centre = 4 * m.units := Nat.mul_assoc _ _ _
  have pos : 0 < 2 ^ m.exponent := Nat.two_pow_pos _
  refine nearest?_of_admits hm hd ?_
  rw [h, ← Nat.mul_assoc, ← centre]
  exact Rounding.admits_of_lt (Nat.mul_lt_mul_of_pos_right (by omega) hd)
    (Nat.mul_lt_mul_of_pos_right high hd)

/-- What fits a significand is a magnitude, also with some powers of two. -/
theorem exists_units {n : Nat} (hn : n ≠ 0) (fits : n ≤ 2 ^ 53) {k : Nat} (hk : k ≤ 900) :
    ∃ p : Magnitude, p.significand ≠ 0 ∧ p.units = n * 2 ^ k * one := by
  rcases Nat.eq_or_lt_of_le fits with rfl | small
  · refine ⟨⟨2 ^ 52, 1075 + k, by decide, .inr (Nat.le_refl _), by omega⟩,
      Nat.ne_of_gt (Nat.two_pow_pos 52), ?_⟩
    change 2 ^ 52 * Nat.pow 2 (1075 + k) = _
    rw [one_eq, Nat.pow_eq, ← Nat.pow_add, ← Nat.pow_add, ← Nat.pow_add]
    congr 1
    omega
  · have least : 2 ^ n.log2 ≤ n := Nat.log2_self_le hn
    have greatest : n < 2 ^ (n.log2 + 1) := Nat.lt_log2_self
    have top : n.log2 < 53 := (Nat.log2_lt hn).2 small
    have width : 2 ^ (n.log2 + 1) * 2 ^ (52 - n.log2) = 2 ^ 53 := by
      rw [← Nat.pow_add]
      congr 1
      omega
    have floor : 2 ^ n.log2 * 2 ^ (52 - n.log2) = 2 ^ 52 := by
      rw [← Nat.pow_add]
      congr 1
      omega
    have pos : 0 < 2 ^ (52 - n.log2) := Nat.two_pow_pos _
    refine ⟨⟨n * 2 ^ (52 - n.log2), 1022 + n.log2 + k, ?_, .inr ?_, by omega⟩, ?_, ?_⟩
    · rw [Nat.pow_eq, ← width]
      exact Nat.mul_lt_mul_of_pos_right greatest pos
    · rw [Nat.pow_eq, ← floor]
      exact Nat.mul_le_mul_right _ least
    · exact Nat.mul_ne_zero hn (Nat.ne_of_gt pos)
    · change n * 2 ^ (52 - n.log2) * Nat.pow 2 (1022 + n.log2 + k) = _
      rw [one_eq, Nat.pow_eq, Nat.mul_assoc, Nat.mul_assoc, ← Nat.pow_add, ← Nat.pow_add]
      congr 2
      omega

theorem nearest?_mul {n t u : Nat} (hm : m.significand ≠ 0) (hu : 0 < u)
    (h : m.rounding.Admits (n * (4 * u * t)) 1) : nearest? (n * u * (t * u)) u = some m :=
  nearest?_of_admits hm hu ((Rounding.admits_congr Nat.one_pos hu (by ring)).1 h)

theorem nearest?_div {n t u : Nat} (hm : m.significand ≠ 0) (hu : 0 < u) (ht : 0 < t)
    (h : m.rounding.Admits (n * (4 * u * 1)) t) : nearest? (n * u * u) (t * u) = some m :=
  nearest?_of_admits hm (Nat.mul_pos ht hu)
    ((Rounding.admits_congr ht (Nat.mul_pos ht hu) (by ring)).1 h)

end Magnitude

theorem Double.ofNat_of_units {n : Nat} {p : Magnitude} (hp : p.significand ≠ 0)
    (h : p.units = n * Magnitude.one) : ofNat n = .finite false p :=
  ofQuotient_eq (Magnitude.nearest?_of_units hp Nat.one_pos (by rw [h, Nat.mul_one])) false

theorem exists_tenPow {k : Nat} (hk : k ≤ 22) :
    ∃ p : Magnitude, Double.ofNat (Nat.pow 10 k) = .finite false p ∧
    p.units = 10 ^ k * Magnitude.one := by
  have odd : 5 ^ k ≤ 2 ^ 53 := Nat.le_trans (Nat.pow_le_pow_right (by decide) hk) (by decide)
  obtain ⟨p, hp, units⟩ :=
    Magnitude.exists_units (Nat.ne_of_gt (Nat.pow_pos (by decide))) odd (k := k) (by omega)
  rw [← Nat.mul_pow] at units
  exact ⟨p, Double.ofNat_of_units hp units, units⟩

section Scaling
variable {x : Double} {negative : Bool} {s p : Magnitude} {k : Nat}

theorem Double.mulTenPow_finite (hx : x = .finite negative s)
    (tens : ofNat (Nat.pow 10 k) = .finite false p) :
    x.mulTenPow k = ofMagnitude negative
      (Magnitude.nearest? (s.units * p.units) Magnitude.one) := by
  -- The number stays a variable while the power of ten is replaced, lest the match compute it.
  unfold mulTenPow
  rw [tens, hx]

theorem Double.divTenPow_finite (hx : x = .finite negative s)
    (tens : ofNat (Nat.pow 10 k) = .finite false p) :
    x.divTenPow k = ofMagnitude negative
      (Magnitude.nearest? (s.units * Magnitude.one) p.units) := by
  unfold divTenPow
  rw [tens, hx]

theorem scale_of_product {m : Magnitude} {n : Nat} {e : Int} (near : e.natAbs ≤ 308)
    (h : Double.ofNat n = .finite false s) (nonneg : 0 ≤ e)
    (product : (Double.finite false s).mulTenPow e.natAbs = .finite false m) :
    Json.Cursor.scale (.ofNat n) e = some (.finite false m) := by
  rw [Json.Cursor.scale, if_pos near, if_pos nonneg, h, product]
  rfl

theorem scale_of_quotient {m : Magnitude} {n : Nat} {e : Int} (near : e.natAbs ≤ 308)
    (h : Double.ofNat n = .finite false s) (neg : ¬ 0 ≤ e)
    (quotient : (Double.finite false s).divTenPow e.natAbs = .finite false m) :
    Json.Cursor.scale (.ofNat n) e = some (.finite false m) := by
  rw [Json.Cursor.scale, if_pos near, if_neg neg, h, quotient]

end Scaling

/-- A decimal with a significand and a power of ten that are exact is rounded once. -/
theorem scale_of_contains {m : Magnitude} (hm : m.significand ≠ 0) {d : Decimal}
    (h : m.rounding.Contains d) (digits : d.digits ≤ 2 ^ 53) (exponent : d.exponent.natAbs ≤ 22) :
    Json.Cursor.scale (.ofNat d.digits) d.exponent = some (.finite false m) := by
  have above (h : 0 ≤ d.exponent) : d.exponent.toNat = d.exponent.natAbs ∧
    (-d.exponent).toNat = 0 := by omega
  have below (h : ¬ 0 ≤ d.exponent) : d.exponent.toNat = 0 ∧
    (-d.exponent).toNat = d.exponent.natAbs := by omega
  have near : d.exponent.natAbs ≤ 308 := Nat.le_trans exponent (by decide)
  obtain ⟨s, hs, units⟩ :=
    Magnitude.exists_units (Magnitude.digits_ne_zero hm h) digits (k := 0) (Nat.zero_le _)
  obtain ⟨p, tens, power⟩ := exists_tenPow exponent
  rw [Nat.pow_zero, Nat.mul_one] at units
  -- Neither the significand nor the power of ten is rounded, so there is only the rounding of the
  -- decimal itself.
  have significand := Double.ofNat_of_units hs units
  have admits := Rounding.holds_iff.1 h
  rw [Rounding.stepSize, Nat.pow_eq, Nat.pow_eq] at admits
  by_cases nonneg : 0 ≤ d.exponent
  · rw [(above nonneg).1, (above nonneg).2, Nat.pow_zero] at admits
    have nearest : Magnitude.nearest? (s.units * p.units) Magnitude.one = some m := by
      rw [units, power]
      exact Magnitude.nearest?_mul hm Magnitude.one_pos admits
    refine scale_of_product near significand nonneg ?_
    rw [Double.mulTenPow_finite rfl tens, nearest, Double.ofMagnitude]
  · rw [(below nonneg).1, (below nonneg).2, Nat.pow_zero] at admits
    have nearest : Magnitude.nearest? (s.units * Magnitude.one) p.units = some m := by
      rw [units, power]
      exact Magnitude.nearest?_div hm Magnitude.one_pos (Nat.pow_pos (by decide)) admits
    refine scale_of_quotient near significand nonneg ?_
    rw [Double.divTenPow_finite rfl tens, nearest, Double.ofMagnitude]

/-- The written decimal is read without loss of digits, and with a power of ten that is exact. -/
def Magnitude.IsShort (m : Magnitude) : Prop :=
  m.written.digits ≤ 2 ^ 53 ∧ m.written.exponent.natAbs ≤ 22

instance (m : Magnitude) : Decidable m.IsShort := inferInstanceAs (Decidable (_ ∧ _))

/-- A number whose written decimal is short is read as itself. -/
theorem Double.reread_of_isShort {m : Magnitude} (short : m.IsShort) (negative : Bool) :
    reread (.finite negative m) = some (.finite negative m) := by
  rw [reread]
  split
  · rfl
  · rename_i hm
    rw [scale_of_contains hm (Magnitude.contains_written hm) short.1 short.2]
    cases negative <;> rfl

def Double.IsShort : Double → Prop
  | finite _ m => m.IsShort
  | _ => False

theorem Double.IsShort.reread {x : Double} (h : x.IsShort) : x.reread = some x := by
  cases x with
  | finite negative m => exact reread_of_isShort h negative
  | nan => exact h.elim
  | infinity negative => exact h.elim

end StoryPreview
