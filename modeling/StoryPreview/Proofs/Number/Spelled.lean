import StoryPreview.Proofs.Arguments.RoundTrip
import StoryPreview.Proofs.Number.Closest
import StoryPreview.Proofs.Number.Fewest
import StoryPreview.Proofs.Number.Grammar
/-!
What the plain spelling of a number says. It denotes the shortest decimal of the number exactly, it
has an exponent only beyond the two ends of positional notation, and no place and no count in its
layout is out of range. So it is read back, and no two numbers but the two zeros share it.
-/
namespace StoryPreview

/-! ### The layout with checks -/

def int32? (n : Int) : Option Int := if -2 ^ 31 ≤ n ∧ n < 2 ^ 31 then some n else none

def splitAt? (cs : List Char) (place : Int) : Option (List Char × List Char) :=
  if 0 ≤ place ∧ place ≤ cs.length then some (cs.take place.toNat, cs.drop place.toNat) else none

def zeros? (count : Int) : Option (List Char) :=
  if 0 ≤ count then some (List.replicate count.toNat '0') else none

def Layout.place? (ds : List Char) (exponent : Int) : Option (List Char) := do
  let count ← int32? ds.length
  let point ← int32? (exponent + 1)
  if count ≤ point ∧ point ≤ 21 then
    let zeros ← zeros? (← int32? (point - count))
    some (ds ++ zeros)
  else if 0 < point ∧ point ≤ 21 then
    let (whole, fraction) ← splitAt? ds point
    some (whole ++ '.' :: fraction)
  else if -6 < point ∧ point ≤ 0 then
    let zeros ← zeros? (← int32? (-point))
    some ('0' :: '.' :: (zeros ++ ds))
  else
    let power ← int32? (point - 1)
    let (lead, rest) ← splitAt? ds 1
    some (lead ++ Literal.pointed rest ++ 'e' :: (if 0 ≤ power then '+' else '-') ::
      Nat.toDigits 10 power.natAbs)

section
variable {n count place : Int} {cs ds : List Char} {x : Int}

theorem int32?_eq (h : n.natAbs < 2 ^ 31) : int32? n = some n := if_pos (by omega)

theorem splitAt?_eq (nonneg : 0 ≤ place) (inside : place ≤ cs.length) :
    splitAt? cs place = some (cs.take place.toNat, cs.drop place.toNat) := if_pos ⟨nonneg, inside⟩

theorem zeros?_eq (nonneg : 0 ≤ count) : zeros? count = some (List.replicate count.toNat '0') :=
  if_pos nonneg

namespace Layout

/-! The four branches of the plain layout. -/

theorem place_whole (count : ds.length ≤ x + 1) (pos : 0 < ds.length) (most : x ≤ 20) :
    plain.place ds x = ds ++ List.replicate (x + 1 - ds.length).toNat '0' := by
  have zeros : (x + 1 - ds.length).toNat = x.toNat + 1 - ds.length := by omega
  rw [place, if_pos ⟨(by omega : (-6 : Int) ≤ x), most⟩, if_neg (by omega : ¬ x < 0)]
  simp only
  rw [if_pos (by omega : ds.length ≤ x.toNat + 1), zeros]
  exact List.append_nil _

theorem place_mixed (nonneg : 0 ≤ x) (count : x + 1 < ds.length) (most : x ≤ 20) :
    plain.place ds x = ds.take (x + 1).toNat ++ '.' :: ds.drop (x + 1).toNat := by
  have whole : (x + 1).toNat = x.toNat + 1 := by omega
  rw [place, if_pos ⟨(by omega : (-6 : Int) ≤ x), most⟩, if_neg (by omega : ¬ x < 0)]
  simp only
  rw [if_neg (by omega : ¬ ds.length ≤ x.toNat + 1), whole]

theorem place_small (least : -6 ≤ x) (neg : x < 0) :
    plain.place ds x = '0' :: '.' :: (List.replicate (-(x + 1)).toNat '0' ++ ds) := by
  rw [place, if_pos ⟨least, (by omega : x ≤ 20)⟩, if_pos neg, show -x - 1 = -(x + 1) by omega]

theorem place_exponent (beyond : ¬ (-6 ≤ x ∧ x ≤ 20)) : plain.place ds x =
    ds.take 1 ++ Literal.pointed (ds.drop 1) ++ 'e' :: (if 0 ≤ x then '+' else '-') ::
      Nat.toDigits 10 x.natAbs := by
  have sign : (if x < 0 then ['-'] else plain.plus) = [if 0 ≤ x then '+' else '-'] := by
    by_cases neg : x < 0
    · rw [if_pos neg, if_neg (by omega)]
    · rw [if_neg neg, if_pos (by omega)]
      rfl
  rw [place, if_neg (show ¬ (plain.least ≤ x ∧ x ≤ plain.greatest) from beyond), sign]
  simp only [Literal.pointed, List.drop_eq_nil_iff, List.singleton_append]

/-- In positional notation there are digits and a point only. -/
theorem digit_or_point (hd : AllDigits ds) (some : ds ≠ []) (positional : -6 ≤ x ∧ x ≤ 20) :
    ∀ c ∈ plain.place ds x, isDigit c = true ∨ c = '.' := by
  have pos := List.length_pos_iff.2 some
  have zeros (n : Nat) : AllDigits (List.replicate n '0') := .zeros n
  intro c hc
  by_cases neg : x < 0
  · rw [place_small positional.1 neg] at hc
    simp only [List.mem_cons, List.mem_append] at hc
    obtain rfl | rfl | hc | hc := hc
    · exact .inl (by decide)
    · exact .inr rfl
    · exact .inl (zeros _ c hc)
    · exact .inl (hd c hc)
  · by_cases count : ds.length ≤ x + 1
    · rw [place_whole count pos positional.2] at hc
      exact .inl ((hd.append (zeros _)) c hc)
    · rw [place_mixed (by omega) (by omega) positional.2] at hc
      simp only [List.mem_append, List.mem_cons] at hc
      obtain hc | rfl | hc := hc
      · exact .inl (hd.take _ c hc)
      · exact .inr rfl
      · exact .inl (hd.drop _ c hc)

/-- Where the count of the digits and the exponent are not large, the checks never fail, and the
layout is the plain one. -/
theorem place?_eq (some : ds ≠ []) (few : ds.length < 2 ^ 30) (near : x.natAbs < 2 ^ 30) :
    place? ds x = .some (plain.place ds x) := by
  have pos := List.length_pos_iff.2 some
  simp only [place?, Option.bind_eq_bind, int32?_eq (by omega : (ds.length : Int).natAbs < 2 ^ 31),
    int32?_eq (by omega : (x + 1).natAbs < 2 ^ 31), Option.bind_some]
  split_ifs with whole mixed small
  · rw [int32?_eq (by omega), Option.bind_some, zeros?_eq (by omega), Option.bind_some,
      place_whole whole.1 pos (by omega)]
  · rw [splitAt?_eq (by omega) (by omega), Option.bind_some,
      place_mixed (by omega) (by omega) (by omega)]
  · rw [int32?_eq (by omega), Option.bind_some, zeros?_eq (by omega), Option.bind_some,
      place_small (by omega) (by omega)]
  · rw [int32?_eq (by omega), Option.bind_some, splitAt?_eq (by omega) (by omega), Option.bind_some,
      place_exponent (by omega), Int.add_sub_cancel]
    rfl

end Layout
end

/-! ### The shortest digits -/

theorem getLast_toDigits {n : Nat} (h : n % 10 ≠ 0) : (Nat.toDigits 10 n).getLast? ≠ some '0' := by
  intro zero
  refine h (Nat.digitChar_eq_zero.1 (Option.some.inj (Eq.trans ?_ zero)))
  rcases Nat.lt_or_ge n 10 with small | large
  · rw [Nat.toDigits_of_lt_base small, Nat.mod_eq_of_lt small]
    rfl
  · rw [Nat.toDigits_of_base_le (by decide) large, List.getLast?_append]
    rfl

namespace Magnitude
variable {m : Magnitude}

/-- A decimal that is read as a magnitude lies in its interval. -/
theorem contains_of_ofDecimal (hm : m.significand ≠ 0) {n : Nat} {k : Int}
    (h : Double.ofDecimal false n k = .finite false m) : m.rounding.Contains ⟨n, k⟩ := by
  have zero : Double.finite false .zero ≠ .finite false m := by
    intro same
    cases same
    exact hm rfl
  unfold Double.ofDecimal at h
  split_ifs at h
  · exact absurd h zero
  · exact absurd h zero
  · unfold Double.ofQuotient at h
    cases nearest : nearest? (n * Nat.pow 10 k.toNat * one) (Nat.pow 10 (-k).toNat) with
    | none =>
      rw [nearest] at h
      cases h
    | some m' =>
      rw [nearest] at h
      cases h
      have admits := admits_of_nearest? (Nat.pow_pos (by decide)) nearest
      have same : n * (4 * one * Nat.pow 10 k.toNat) = 4 * (n * Nat.pow 10 k.toNat * one) := by
        generalize one = u
        ring
      rw [Rounding.Contains, Rounding.holds_iff, Rounding.stepSize, same]
      exact admits

def figures (m : Magnitude) : List Char := Nat.toDigits 10 (m.shortest .upward).digits

def order (m : Magnitude) : Int := (m.shortest .upward).exponent + m.figures.length - 1

/-- Digits that are read as a magnitude if the first of them stands for `10 ^ e`. No zero is at
either end, and no decimal that is read as the magnitude has fewer. -/
structure IsShortest (m : Magnitude) (ds : List Char) (e : Int) : Prop where
  digits : AllDigits ds
  some : ds ≠ []
  head : ds.head? ≠ .some '0'
  last : ds.getLast? ≠ .some '0'
  read : ∀ negative, Double.ofDecimal negative (digitsValue ds) (e + 1 - ds.length) =
    .finite negative m
  fewest : ∀ n k, Double.ofDecimal false n k = .finite false m → ds.length ≤ digitCount n

theorem isShortest_figures (hm : m.significand ≠ 0) : m.IsShortest m.figures m.order where
  digits := .toDigits _
  some := List.length_pos_iff.1 Nat.length_toDigits_pos
  head := head_toDigits (digits_ne_zero hm (contains_shortest hm .upward))
  last := getLast_toDigits (shortest_digits_mod_ten hm .upward)
  read := by
    have exponent : m.order + 1 - m.figures.length = (m.shortest .upward).exponent := by
      rw [order]
      omega
    rw [exponent, figures, digitsValue_toDigits]
    exact Double.ofDecimal_of_contains hm (contains_shortest hm .upward)
  fewest _ _ h := digitCount_shortest_le hm (contains_of_ofDecimal hm h) .upward

def least : Magnitude := (ofParts? 1 0).getD zero

theorem length_figures_le (hm : m.significand ≠ 0) : m.figures.length ≤ 20 :=
  (Nat.length_toDigits_le_iff (by decide) (by decide)).2
    (Nat.lt_of_le_of_lt (digits_le hm .upward) (by decide))

theorem natAbs_order_le (hm : m.significand ≠ 0) : m.order.natAbs ≤ 401 := by
  have contains := contains_shortest hm .upward
  have below := exponent_lt hm contains
  have above := le_exponent hm contains
  have few := length_figures_le hm
  have count : digitCount (m.shortest .upward).digits = m.figures.length := rfl
  rw [order]
  omega

end Magnitude

/-! ### What a spelling denotes -/

def scientific (ds : List Char) (e : Int) : ℚ := digitsValue ds / 10 ^ (ds.length - 1) * 10 ^ e

theorem Layout.Places.exact_eq {ds text : List Char} {e : Int} (p : Places ds e text)
    (some : ds ≠ []) (negative : Bool) :
    (⟨negative, p.whole, p.fraction, p.exponent⟩ : Literal).exact =
      sign negative * scientific ds e := by
  have pos := List.length_pos_iff.2 some
  have ten : (10 : ℚ) ≠ 0 := by norm_num
  have exponent : (p.trailing : Int) + (p.exponent - p.fraction.length) =
      e - (ds.length - 1 : Nat) := by
    have := p.scale
    omega
  rw [Literal.exact, p.digits, digitsValue_leading, digitsValue_zeros, scientific, Nat.cast_mul,
    Nat.cast_pow, mul_assoc, div_mul_eq_mul_div, mul_div_assoc]
  simp only [Nat.cast_ofNat, ← zpow_natCast, ← zpow_add₀ ten, ← zpow_sub₀ ten, exponent]

/-- How `± d₁.d₂…dₖ * 10 ^ e` is written. -/
structure IsPlain (negative : Bool) (ds : List Char) (e : Int) (text : List Char) : Prop where
  denotes : ∃ l, Literal.Spells text l ∧ l.exact = sign negative * scientific ds e
  positional : (∀ c ∈ text, c ≠ 'e' ∧ c ≠ 'E') ↔ -6 ≤ e ∧ e ≤ 20
  exponent : ¬ (-6 ≤ e ∧ e ≤ 20) → ∃ power : List Char,
    text = (if negative then ['-'] else []) ++
      (ds.take 1 ++ Literal.pointed (ds.drop 1) ++ 'e' :: (if 0 ≤ e then '+' else '-') :: power) ∧
    AllDigits power ∧ power.head? ≠ some '0' ∧ digitsValue power = e.natAbs
  inRange : ∃ written, Layout.place? ds e = some written ∧
    text = (if negative then ['-'] else []) ++ written

namespace Double
variable {m : Magnitude}

theorem spelling_finite (negative : Bool) (hm : m.significand ≠ 0) :
    (Double.finite negative m).spelling =
    (if negative then ['-'] else []) ++ Layout.plain.place m.figures m.order := by
  rw [spelling, Layout.write, if_neg hm]
  rfl

theorem isPlain_spelling (negative : Bool) (hm : m.significand ≠ 0) :
    IsPlain negative m.figures m.order (Double.finite negative m).spelling where
  denotes := by
    have shortest := Magnitude.isShortest_figures hm
    obtain ⟨p⟩ := Layout.exists_places shortest.digits shortest.some (x := m.order)
    have read :=
      Literal.read?_parts negative p.whole_digits p.whole_ne p.fraction_digits p.isTail p.scanned
    rw [← p.text_eq, ← spelling_finite negative hm] at read
    exact ⟨_, Literal.read?_eq_some_iff.1 read, p.exact_eq shortest.some negative⟩
  positional := by
    have shortest := Magnitude.isShortest_figures hm
    rw [spelling_finite negative hm]
    constructor
    · intro none
      by_contra beyond
      rw [Layout.place_exponent beyond] at none
      exact (none 'e' (by simp)).1 rfl
    · intro positional c hc
      obtain sign | placed := List.mem_append.1 hc
      · cases negative
        · cases sign
        · obtain rfl := List.mem_singleton.1 sign
          decide
      · obtain digit | rfl :=
          Layout.digit_or_point shortest.digits shortest.some positional c placed
        · constructor <;> rintro rfl <;> exact absurd digit (by decide)
        · decide
  exponent beyond := by
    have some : m.order.natAbs ≠ 0 := by omega
    refine ⟨Nat.toDigits 10 m.order.natAbs, ?_, .toDigits _, head_toDigits some,
      digitsValue_toDigits _⟩
    rw [spelling_finite negative hm, Layout.place_exponent beyond]
  inRange := by
    have few := Magnitude.length_figures_le hm
    have near := Magnitude.natAbs_order_le hm
    exact ⟨_, Layout.place?_eq (Magnitude.isShortest_figures hm).some (by omega) (by omega),
      spelling_finite negative hm⟩

/-- What a text says as a number: without the blanks at its ends it is a spelling. An empty text and
one with blanks inside are not even tried. -/
def parse? (cs : List Char) : Option Double :=
  let text := Text.trim cs
  if text.isEmpty || text.any Text.isBlank then none else ofSpelling? text

theorem parse?_eq (cs : List Char) : parse? cs = ofSpelling? (Text.trim cs) := by
  have spelled {x : Double} (h : ofSpelling? (Text.trim cs) = some x) :
      ((Text.trim cs).isEmpty || (Text.trim cs).any Text.isBlank) = false := by
    obtain ⟨-, spelling⟩ := of_ofSpelling? h
    have blank : (Text.trim cs).any Text.isBlank = false := by
      refine List.any_eq_false.2 fun c hc => ?_
      rw [← spelling] at hc
      simp [Codec.isBlank_of_isCoded (Codec.isCoded_of_mem (v := .number x) hc)]
    rw [blank, Bool.or_false, Bool.eq_false_iff]
    intro empty
    rw [List.isEmpty_iff.1 empty] at h
    cases h
  rw [parse?]
  cases h : ofSpelling? (Text.trim cs) with
  | none => exact ite_self _
  | some x =>
    rw [spelled h]
    rfl

theorem trim_spelling (x : Double) : Text.trim x.spelling = x.spelling :=
  Codec.trim_encodeValue (.number x)

/-- Of the finite numbers, only the two zeros have the same spelling. -/
theorem spelling_eq_iff {x y : Double} (hx : x.isFinite = true) (hy : y.isFinite = true) :
    x.spelling = y.spelling ↔ x.same y = true := by
  refine ⟨fun same => ?_, spelling_of_same⟩
  have read := read?_spelling hx
  rw [same, read?_spelling hy] at read
  obtain ⟨a, m, rfl⟩ : ∃ a m, x = .finite a m := by cases x <;> simp_all [isFinite]
  obtain ⟨b, n, rfl⟩ : ∃ b n, y = .finite b n := by cases y <;> simp_all [isFinite]
  obtain ⟨signs, rfl⟩ : (b && n.significand != 0) = (a && m.significand != 0) ∧ n = m := by
    simpa [unsigned] using read
  by_cases zero : n.significand = 0
  · simp [Double.same, zero]
  · have signed : (n.significand != 0) = true := by simpa using zero
    rw [signed, Bool.and_true, Bool.and_true] at signs
    simp [Double.same, signs]

/-- A number other than zero is spelled by its shortest digits, in the notation that their place
asks for, and the spelling denotes them exactly. It is read back as the number; nothing else is read
than spellings, and the two zeros alone share theirs. -/
theorem spelling_exact (negative : Bool) (hm : m.significand ≠ 0) :
    m.IsShortest m.figures m.order ∧ IsPlain negative m.figures m.order
      (Double.finite negative m).spelling ∧
      parse? (Double.finite negative m).spelling = some (.finite negative m) ∧
      (∀ cs, parse? cs = ofSpelling? (Text.trim cs)) ∧
      (∀ cs y, parse? cs = some y → y.isFinite = true ∧ y.spelling = Text.trim cs) ∧
      ∀ x y : Double, x.isFinite = true → y.isFinite = true →
      (x.spelling = y.spelling ↔ x.same y = true) := by
  refine ⟨Magnitude.isShortest_figures hm, isPlain_spelling negative hm, ?_, parse?_eq,
    fun cs y read => ?_, fun _ _ => spelling_eq_iff⟩
  · have signed : (m.significand != 0) = true := by simpa using hm
    rw [parse?_eq, trim_spelling, ofSpelling?_spelling rfl, unsigned, signed, Bool.and_true]
  · rw [parse?_eq] at read
    exact of_ofSpelling? read

/-- The least number above zero is spelled with one digit. -/
theorem spelling_exact_least : Magnitude.least.significand ≠ 0 ∧
    (Double.finite true .least).spelling = "-5e-324".toList ∧
    IsPlain true Magnitude.least.figures Magnitude.least.order
      (Double.finite true .least).spelling ∧
    parse? (Double.finite true .least).spelling = some (.finite true .least) := by
  have some : Magnitude.least.significand ≠ 0 := by decide
  obtain ⟨-, plain, read, -⟩ := spelling_exact true some
  exact ⟨some, by decide +kernel, plain, read⟩

end Double
end StoryPreview
