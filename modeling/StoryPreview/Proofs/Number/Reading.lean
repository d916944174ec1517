import Mathlib.Data.List.Basic
import StoryPreview.Proofs.Number.Characters
import StoryPreview.Proofs.Number.Shortest
/-!
Spellings are read back. A spelling is a literal whose digits are those of the shortest decimal with
zeros around them, so its value is the number that it spells; of the two zeros, which have one
spelling, it is the positive one.
-/
namespace StoryPreview

def AllDigits (ds : List Char) : Prop := ∀ d ∈ ds, isDigit d = true

namespace AllDigits
variable {ds es : List Char}

theorem toDigits (n : Nat) : AllDigits (Nat.toDigits 10 n) := fun _ hd =>
  Nat.isDigit_of_mem_toDigits (by decide) (by decide) hd

theorem zeros (n : Nat) : AllDigits (List.replicate n '0') := by
  intro d hd
  rw [(List.mem_replicate.1 hd).2]
  decide

theorem append (h : AllDigits ds) (h' : AllDigits es) : AllDigits (ds ++ es) := by
  intro d hd
  rcases List.mem_append.1 hd with hd | hd
  · exact h d hd
  · exact h' d hd

theorem take (h : AllDigits ds) (n : Nat) : AllDigits (ds.take n) :=
  fun d hd => h d (List.mem_of_mem_take hd)

theorem drop (h : AllDigits ds) (n : Nat) : AllDigits (ds.drop n) :=
  fun d hd => h d (List.mem_of_mem_drop hd)

theorem scan (h : AllDigits ds) {rest : List Char} (hr : ∀ c ∈ rest.head?, isDigit c = false) :
    (ds ++ rest).takeWhile isDigit = ds ∧ (ds ++ rest).dropWhile isDigit = rest := by
  rw [List.takeWhile_append_of_pos h, List.dropWhile_append_of_pos h]
  cases rest with
  | nil => simp
  | cons c rest =>
    have hc : isDigit c = false := hr c rfl
    simp [hc]

theorem scanAll (h : AllDigits ds) : ds.takeWhile isDigit = ds ∧ ds.dropWhile isDigit = [] := by
  have scanned := @scan ds h [] (by simp)
  rwa [List.append_nil] at scanned

end AllDigits

theorem digitsValue_append (ds es : List Char) :
    digitsValue (ds ++ es) = Nat.ofDigitChars 10 es (digitsValue ds) := Nat.ofDigitChars_append 0

theorem digitsValue_toDigits (n : Nat) : digitsValue (Nat.toDigits 10 n) = n :=
  Nat.ofDigitChars_toDigits (by decide) (by decide)

theorem digitsValue_zeros (ds : List Char) (n : Nat) :
    digitsValue (ds ++ List.replicate n '0') = digitsValue ds * 10 ^ n := by
  induction n with
  | zero => simp
  | succ n ih =>
    rw [List.replicate_succ', ← List.append_assoc, digitsValue_append, ih, Nat.pow_succ,
      ← Nat.mul_assoc, Nat.mul_comm _ 10]
    rfl

theorem digitsValue_leading (n : Nat) (ds : List Char) :
    digitsValue (List.replicate n '0' ++ ds) = digitsValue ds := by
  have none : digitsValue (List.replicate n '0') = 0 := by
    have h := digitsValue_zeros [] n
    rwa [List.nil_append, show digitsValue [] = 0 from rfl, Nat.zero_mul] at h
  rw [digitsValue_append, none]
  rfl

namespace Literal

def pointed (fraction : List Char) : List Char := if fraction = [] then [] else '.' :: fraction

def IsTail (tail : List Char) : Prop := ∀ c ∈ tail.head?, c = 'e'

theorem IsTail.notDigit {tail : List Char} (h : IsTail tail) :
    ∀ c ∈ tail.head?, isDigit c = false := by
  intro c hc
  rw [h c hc]
  decide

theorem scanSign_digits {ds : List Char} (h : AllDigits ds) (hne : ds ≠ []) {rest : List Char} :
    scanSign (ds ++ rest) = (false, ds ++ rest) := by
  cases ds with
  | nil => exact absurd rfl hne
  | cons d ds =>
    have hd : isDigit d = true := h d List.mem_cons_self
    have minus : d ≠ '-' := by
      rintro rfl
      exact absurd hd (by decide)
    have plus : d ≠ '+' := by
      rintro rfl
      exact absurd hd (by decide)
    simp [scanSign, minus, plus]

theorem scanFraction_pointed {fraction tail : List Char} (hf : AllDigits fraction)
    (ht : IsTail tail) : scanFraction (pointed fraction ++ tail) = (fraction, tail) := by
  by_cases h : fraction = []
  · subst h
    cases tail with
    | nil => rfl
    | cons c tail =>
      obtain rfl : c = 'e' := ht c rfl
      simp [pointed, scanFraction]
  · have scanned := hf.scan ht.notDigit
    simp [pointed, h, scanFraction, scanned]

/-- A text that is put together from the parts of a literal is read as that literal. -/
theorem read?_parts (negative : Bool) {whole fraction tail : List Char} {exponent : Int}
    (hw : AllDigits whole) (hne : whole ≠ []) (hf : AllDigits fraction) (ht : IsTail tail)
    (he : scanExponent tail = (exponent, [])) :
    read? ((if negative then ['-'] else []) ++ (whole ++ (pointed fraction ++ tail))) =
      some ⟨negative, whole, fraction, exponent⟩ := by
  have sign : scanSign ((if negative then ['-'] else []) ++ (whole ++ (pointed fraction ++ tail))) =
      (negative, whole ++ (pointed fraction ++ tail)) := by
    cases negative with
    | false => exact scanSign_digits hw hne
    | true => rfl
  have follow : ∀ c ∈ (pointed fraction ++ tail).head?, isDigit c = false := by
    intro c hc
    by_cases h : fraction = []
    · exact ht.notDigit c (by simpa [pointed, h] using hc)
    · have hc : '.' = c := by simpa [pointed, h] using hc
      rw [← hc]
      decide
  have scanned := hw.scan follow
  simp only [read?, scan, sign, scanned, scanFraction_pointed hf ht, he, hne, false_and, if_false]

theorem scanExponent_written (x : Int) :
    scanExponent ('e' :: ((if x < 0 then ['-'] else ['+']) ++ Nat.toDigits 10 x.natAbs)) =
      (x, []) := by
  have scanned := (AllDigits.toDigits x.natAbs).scanAll
  have value := digitsValue_toDigits x.natAbs
  have count := Nat.length_toDigits_pos (b := 10) (n := x.natAbs)
  generalize Nat.toDigits 10 x.natAbs = ds at scanned value count
  cases ds with
  | nil => exact absurd count (by simp)
  | cons d ds =>
    have sign : scanSign ((if x < 0 then ['-'] else ['+']) ++ d :: ds) =
        (decide (x < 0), d :: ds) := by
      by_cases h : x < 0 <;> simp [h, scanSign]
    simp only [scanExponent, beq_self_eq_true, Bool.true_or, if_true, sign, scanned, value]
    by_cases h : x < 0
    · simp only [h, decide_true, if_true, Prod.mk.injEq, and_true]
      omega
    · simp only [h, decide_false, Bool.false_eq_true, if_false, Prod.mk.injEq, and_true]
      omega

end Literal

namespace Layout
variable {ds : List Char} {x : Int}

/-- The parts of a literal in which `ds` are the digits, with zeros around them, and the first of
them stands for `10 ^ x`. -/
structure Places (ds : List Char) (x : Int) (text : List Char) where
  whole : List Char
  fraction : List Char
  tail : List Char
  exponent : Int
  leading : Nat
  trailing : Nat
  text_eq : text = whole ++ (Literal.pointed fraction ++ tail)
  whole_digits : AllDigits whole
  whole_ne : whole ≠ []
  fraction_digits : AllDigits fraction
  isTail : Literal.IsTail tail
  scanned : Literal.scanExponent tail = (exponent, [])
  digits : whole ++ fraction = List.replicate leading '0' ++ (ds ++ List.replicate trailing '0')
  scale : exponent - fraction.length + trailing = x + 1 - ds.length

def placesSmall (hd : AllDigits ds) (hne : ds ≠ []) (hx : x < 0) :
    Places ds x ('0' :: '.' :: (List.replicate (-x - 1).toNat '0' ++ ds)) where
  whole := ['0']
  fraction := List.replicate (-x - 1).toNat '0' ++ ds
  tail := []
  exponent := 0
  leading := (-x - 1).toNat + 1
  trailing := 0
  text_eq := by simp [Literal.pointed, hne]
  whole_digits := AllDigits.zeros 1
  whole_ne := by simp
  fraction_digits := (AllDigits.zeros _).append hd
  isTail := by simp [Literal.IsTail]
  scanned := rfl
  digits := by simp [List.replicate_succ]
  scale := by
    simp only [List.length_append, List.length_replicate]
    omega

def placesWhole (hd : AllDigits ds) (hne : ds ≠ []) (hx : 0 ≤ x) (hl : ds.length ≤ x.toNat + 1) :
    Places ds x (ds ++ List.replicate (x.toNat + 1 - ds.length) '0') where
  whole := ds ++ List.replicate (x.toNat + 1 - ds.length) '0'
  fraction := []
  tail := []
  exponent := 0
  leading := 0
  trailing := x.toNat + 1 - ds.length
  text_eq := by simp [Literal.pointed]
  whole_digits := hd.append (.zeros _)
  whole_ne := by simp [hne]
  fraction_digits := by simp [AllDigits]
  isTail := by simp [Literal.IsTail]
  scanned := rfl
  digits := by simp
  scale := by
    simp only [List.length_nil]
    omega

def placesPoint (hd : AllDigits ds) (hne : ds ≠ []) (hx : 0 ≤ x) (hl : ds.length ≤ x.toNat + 1) :
    Places ds x (ds ++ List.replicate (x.toNat + 1 - ds.length) '0' ++ ['.', '0']) where
  whole := ds ++ List.replicate (x.toNat + 1 - ds.length) '0'
  fraction := ['0']
  tail := []
  exponent := 0
  leading := 0
  trailing := x.toNat + 1 - ds.length + 1
  text_eq := by simp [Literal.pointed]
  whole_digits := hd.append (.zeros _)
  whole_ne := by simp [hne]
  fraction_digits := AllDigits.zeros 1
  isTail := by simp [Literal.IsTail]
  scanned := rfl
  digits := by simp [List.replicate_succ']
  scale := by
    simp only [List.length_singleton]
    omega

def placesMixed (hd : AllDigits ds) (hx : 0 ≤ x) (hl : x.toNat + 1 < ds.length) :
    Places ds x (ds.take (x.toNat + 1) ++ '.' :: ds.drop (x.toNat + 1)) where
  whole := ds.take (x.toNat + 1)
  fraction := ds.drop (x.toNat + 1)
  tail := []
  exponent := 0
  leading := 0
  trailing := 0
  text_eq := by
    have : ¬ ds.length ≤ x.toNat + 1 := Nat.not_le.2 hl
    simp [Literal.pointed, this]
  whole_digits := hd.take _
  whole_ne := by
    have : ds ≠ [] := by
      rintro rfl
      simp at hl
    simp [this]
  fraction_digits := hd.drop _
  isTail := by simp [Literal.IsTail]
  scanned := rfl
  digits := by simp
  scale := by
    simp only [List.length_drop]
    omega

def placesExponent (hd : AllDigits ds) (hne : ds ≠ []) :
    Places ds x (ds.take 1 ++ (if ds.length ≤ 1 then [] else '.' :: ds.drop 1) ++
      'e' :: ((if x < 0 then ['-'] else ['+']) ++ Nat.toDigits 10 x.natAbs)) where
  whole := ds.take 1
  fraction := ds.drop 1
  tail := 'e' :: ((if x < 0 then ['-'] else ['+']) ++ Nat.toDigits 10 x.natAbs)
  exponent := x
  leading := 0
  trailing := 0
  text_eq := by simp only [Literal.pointed, List.drop_eq_nil_iff, List.append_assoc]
  whole_digits := hd.take _
  whole_ne := by simp [hne]
  fraction_digits := hd.drop _
  isTail := by simp [Literal.IsTail]
  scanned := Literal.scanExponent_written x
  digits := by rw [List.take_append_drop]; simp
  scale := by
    have := List.length_pos_iff.2 hne
    simp only [List.length_drop]
    omega

theorem exists_places (hd : AllDigits ds) (hne : ds ≠ []) :
    Nonempty (Places ds x (plain.place ds x)) := by
  by_cases positional : plain.least ≤ x ∧ x ≤ plain.greatest
  · by_cases hx : x < 0
    · rw [place, if_pos positional, if_pos hx]
      exact ⟨placesSmall hd hne hx⟩
    · rw [place, if_pos positional, if_neg hx]
      by_cases hl : ds.length ≤ x.toNat + 1
      · simp only [hl, if_true, plain, Bool.false_eq_true, if_false, List.append_nil]
        exact ⟨placesWhole hd hne (Int.not_lt.1 hx) hl⟩
      · simp only [hl, if_false]
        exact ⟨placesMixed hd (Int.not_lt.1 hx) (Nat.lt_of_not_le hl)⟩
  · rw [place, if_neg positional]
    exact ⟨placesExponent hd hne⟩

theorem Places.value_eq {m : Magnitude} (hm : m.significand ≠ 0) {d : Decimal}
    (h : m.rounding.Contains d) {text : List Char}
    (p : Places (Nat.toDigits 10 d.digits)
      (d.exponent + (Nat.toDigits 10 d.digits).length - 1) text)
    (negative : Bool) :
    (⟨negative, p.whole, p.fraction, p.exponent⟩ : Literal).value = .finite negative m := by
  have digits : digitsValue (p.whole ++ p.fraction) = d.digits * 10 ^ p.trailing := by
    rw [p.digits, digitsValue_leading, digitsValue_zeros, digitsValue_toDigits]
  have shifted : m.rounding.Contains ⟨d.digits * 10 ^ p.trailing,
      p.exponent - p.fraction.length⟩ := by
    rw [Rounding.contains_shift]
    have := p.scale
    rwa [show p.exponent - p.fraction.length + p.trailing = d.exponent by omega]
  rw [Literal.value, digits]
  exact Double.ofDecimal_of_contains hm shifted negative

end Layout

/-- The spelling of a number other than zero is a literal with its value. -/
theorem Layout.read?_magnitude {m : Magnitude} (hm : m.significand ≠ 0) (negative : Bool) :
    ∃ l, Literal.read? ((if negative then ['-'] else []) ++ plain.magnitude m) = some l ∧
      l.value = .finite negative m := by
  have contains := Magnitude.contains_shortest hm plain.tie
  have hne : Nat.toDigits 10 (m.shortest plain.tie).digits ≠ [] :=
    List.length_pos_iff.1 Nat.length_toDigits_pos
  obtain ⟨p⟩ := exists_places (AllDigits.toDigits _) hne
    (x := (m.shortest plain.tie).exponent +
      (Nat.toDigits 10 (m.shortest plain.tie).digits).length - 1)
  have read :=
    Literal.read?_parts negative p.whole_digits p.whole_ne p.fraction_digits p.isTail p.scanned
  rw [← p.text_eq] at read
  exact ⟨_, read, p.value_eq hm contains negative⟩

theorem Magnitude.eq_zero_of_significand {m : Magnitude} (hm : m.significand = 0) : m = zero := by
  obtain ⟨significand, exponent, significand_lt, normal, exponent_le⟩ := m
  subst hm
  cases normal with
  | inl h =>
    subst h
    rfl
  | inr h => exact absurd h (by decide)

namespace Double

/-- What is recovered from a spelling: the number, without the sign of a zero. -/
def unsigned : Double → Double
  | .finite negative m => .finite (negative && m.significand != 0) m
  | x => x

theorem same_unsigned {x : Double} (hx : x.isFinite = true) : x.unsigned.same x = true := by
  cases x with
  | nan => cases hx
  | infinity negative => cases hx
  | finite negative m => by_cases hm : m.significand = 0 <;> simp [unsigned, same, hm]

theorem spelling_unsigned (x : Double) : x.unsigned.spelling = x.spelling := by
  cases x with
  | nan => rfl
  | infinity negative => rfl
  | finite negative m => by_cases hm : m.significand = 0 <;> simp [unsigned, spelling, Layout.write,
    Layout.plain, hm]

theorem spelling_of_same {x y : Double} (h : x.same y = true) : x.spelling = y.spelling := by
  cases x with
  | nan => cases h
  | infinity a => cases y <;> simp_all [same]
  | finite a m =>
    cases y with
    | nan => cases h
    | infinity b => cases h
    | finite b n =>
      simp only [same, Bool.and_eq_true, Bool.or_eq_true, beq_iff_eq] at h
      obtain ⟨rfl, rfl | zero⟩ := h
      · rfl
      · obtain rfl := Magnitude.eq_zero_of_significand zero
        cases a <;> cases b <;> rfl

/-- The spelling of a finite number is read as that number; of the two zeros, as the positive
one. -/
theorem read?_spelling {x : Double} (hx : x.isFinite = true) :
    read? x.spelling = some x.unsigned := by
  cases x with
  | nan => cases hx
  | infinity negative => cases hx
  | finite negative m =>
    by_cases hm : m.significand = 0
    · obtain rfl := Magnitude.eq_zero_of_significand hm
      cases negative <;> rfl
    · obtain ⟨l, hl, value⟩ := Layout.read?_magnitude hm negative
      have signed : (m.significand != 0) = true := by simpa using hm
      rw [spelling, Layout.write, if_neg hm, read?, hl, unsigned, signed, Bool.and_true]
      exact congrArg some value

theorem isFinite_unsigned (x : Double) : x.unsigned.isFinite = x.isFinite := by
  cases x <;> rfl

theorem ofSpelling?_spelling {x : Double} (hx : x.isFinite = true) :
    ofSpelling? x.spelling = some x.unsigned := by
  rw [ofSpelling?, read?_spelling hx]
  exact if_pos ⟨by rwa [isFinite_unsigned], spelling_unsigned x⟩

/-- What is read as a spelling is the spelling of a finite number. -/
theorem of_ofSpelling? {cs : List Char} {x : Double} (h : ofSpelling? cs = some x) :
    x.isFinite = true ∧ x.spelling = cs := by
  unfold ofSpelling? at h
  split at h
  · split at h
    · rename_i finite
      cases h
      exact finite
    · cases h
  · cases h

end Double
end StoryPreview
