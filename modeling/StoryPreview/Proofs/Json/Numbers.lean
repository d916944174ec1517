import StoryPreview.Proofs.Json.Reading
import StoryPreview.Proofs.Number.Stored
/-!
Numbers that have been written as JSON. The digits are gathered to a significand as long as that
stays below `2 ^ 64`, which it does for all that is written; a number with a point or an exponent is
then scaled by a power of ten.
-/
namespace StoryPreview.Json.Cursor
variable {c : Cursor} {rest ds : List Char} {negative : Bool}

/-! ### Digits -/

theorem le_ofDigitChars (ds : List Char) (n : Nat) : n ≤ Nat.ofDigitChars 10 ds n := by
  induction ds generalizing n with
  | nil => exact Nat.le_refl n
  | cons d ds ih =>
    rw [Nat.ofDigitChars_cons]
    exact Nat.le_trans (by omega) (ih _)

/-- All digits are taken if the number that they make is not beyond the limit. -/
theorem gather_eq {limit n : Nat} (h : Nat.ofDigitChars 10 ds n ≤ limit) :
    gather limit n ds = (Nat.ofDigitChars 10 ds n, []) := by
  induction ds generalizing n with
  | nil => rfl
  | cons d ds ih =>
    rw [Nat.ofDigitChars_cons] at h ⊢
    have next : 10 * n + (d.toNat - 48) ≤ limit := Nat.le_trans (le_ofDigitChars ds _) h
    rw [gather, if_pos next]
    exact ih h

theorem gather_toDigits {limit n : Nat} (h : n ≤ limit) :
    gather limit 0 (Nat.toDigits 10 n) = (n, []) := by
  have digits : Nat.ofDigitChars 10 (Nat.toDigits 10 n) 0 = n := digitsValue_toDigits n
  rw [gather_eq (digits.symm ▸ h), digits]

structure Faces (c : Cursor) (ds rest : List Char) : Prop where
  text : c.rest = ds ++ rest
  digits : AllDigits ds
  some : ds ≠ []
  follow : ∀ d ∈ rest.head?, isDigit d = false

namespace Faces

theorem taken (h : c.Faces ds rest) : c.rest.takeWhile isDigit = ds ∧
    (c.skip ds.length).rest = rest := by
  rw [skip_rest, h.text, List.drop_left]
  exact ⟨(h.digits.scan h.follow).1, rfl⟩

theorem first (h : c.Faces ds rest) : ∃ d more, c.rest = d :: more ∧ isDigit d = true ∧
    (Leads ds → ¬ (d = '0' ∧ more.takeWhile isDigit ≠ [])) := by
  obtain ⟨text, digits, some, follow⟩ := h
  cases ds with
  | nil => exact absurd rfl some
  | cons d ds =>
    refine ⟨d, ds ++ rest, text, digits d List.mem_cons_self, fun leads zero => ?_⟩
    have alone : ds = [] := by simpa using leads (congrArg Option.some zero.1)
    have more : AllDigits ds := fun e he => digits e (List.mem_cons_of_mem d he)
    exact zero.2 ((more.scan follow).1.trans alone)

end Faces

theorem readNumber_natural {n : Nat} (hn : n ≤ naturalLimit)
    (h : c.rest = Nat.toDigits 10 n ++ rest) (hr : Breaks rest) :
    ∃ c', readNumber false c = .ok (.natural n, c') ∧ c'.rest = rest := by
  have some : Nat.toDigits 10 n ≠ [] := List.length_pos_iff.1 Nat.length_toDigits_pos
  have faces : c.Faces (Nat.toDigits 10 n) rest := ⟨h, .toDigits n, some, hr.notDigit⟩
  obtain ⟨taken, after⟩ := faces.taken
  obtain ⟨d, more, front, digit, leads⟩ := faces.first
  have value := gather_toDigits hn
  refine ⟨c.skip (Nat.toDigits 10 n).length, ?_, after⟩
  unfold readNumber
  simp only [taken, value, after]
  simp only [front, digit, leads (leads_toDigits n), Bool.not_true, Bool.false_eq_true, if_false]
  split
  · exact absurd rfl (hr _ rfl).2.1
  · exact absurd rfl (hr _ rfl).2.2.1
  · exact absurd rfl (hr _ rfl).2.2.2
  · simp

/-! ### A point or an exponent -/

theorem exponentPart_eq {x e : Int} {n : Nat} (limit : x.natAbs ≤ exponentLimit)
    (hc : c.rest = Layout.exponentText x ++ rest) (hr : Breaks rest) :
    ∃ c', c'.rest = rest ∧ exponentPart negative n e c = realNumber negative n (e + x) c' := by
  have gathered := gather_toDigits limit
  have present : Nat.toDigits 10 x.natAbs ≠ [] := List.length_pos_iff.1 Nat.length_toDigits_pos
  have behind : (c.skip 1).rest = (if x < 0 then ['-'] else ['+']) ++
      (Nat.toDigits 10 x.natAbs ++ rest) := by
    rw [skip_rest, hc]
    simp [Layout.exponentText]
  have faces : ((c.skip 1).skip 1).Faces (Nat.toDigits 10 x.natAbs) rest := by
    refine ⟨?_, .toDigits _, present, hr.notDigit⟩
    rw [skip_rest, behind]
    split <;> rfl
  obtain ⟨taken, after⟩ := faces.taken
  obtain ⟨d, more, front, -⟩ := faces.first
  refine ⟨_, after, ?_⟩
  unfold exponentPart
  by_cases below : x < 0
  · rw [if_pos below] at behind
    simp only [behind, List.cons_append, List.nil_append, taken, gathered]
    simp only [front, present, if_false, if_true]
    congr 1
    omega
  · rw [if_neg below] at behind
    simp only [behind, List.cons_append, List.nil_append, taken, gathered]
    simp only [front, present, Bool.false_eq_true, if_false]
    congr 1
    omega

/-- Behind all digits there is an exponent or the end of the number. -/
theorem afterDigits_eq {ds text : List Char} {x : Int} {p : Layout.Places ds x text}
    (isStored : p.IsStored) (limit : x.natAbs ≤ exponentLimit) (negative : Bool) (n : Nat) (e : Int)
    (hc : c.rest = p.tail ++ rest) (hr : Breaks rest) :
    ∃ c', c'.rest = rest ∧ afterDigits negative n e c = realNumber negative n
      (e + p.exponent) c' := by
  unfold afterDigits
  rcases isStored.exponent with ⟨tail, exponent⟩ | ⟨tail, exponent⟩
  · rw [tail, List.nil_append] at hc
    refine ⟨c, hc, ?_⟩
    rw [exponent, Int.add_zero]
    split
    · rename_i mark
      exact absurd rfl (hr 'e' (by rw [← hc, mark]; rfl)).2.2.1
    · rename_i mark
      exact absurd rfl (hr 'E' (by rw [← hc, mark]; rfl)).2.2.2
    · rfl
  · rw [tail] at hc
    have front : c.rest = 'e' :: ((if x < 0 then ['-'] else ['+']) ++
      Nat.toDigits 10 x.natAbs ++ rest) := hc
    simp only [front]
    rw [exponent]
    exact exponentPart_eq limit hc hr

section Parts
variable {text : List Char} {x : Int} {p : Layout.Places ds x text}

theorem notDigit_tail (p : Layout.Places ds x text) (hr : Breaks rest) :
    ∀ d ∈ (p.tail ++ rest).head?, isDigit d = false := by
  intro d hd
  rw [List.head?_append, Option.mem_def, Option.or_eq_some_iff] at hd
  rcases hd with mark | ⟨-, other⟩
  · exact p.isTail.notDigit d mark
  · exact hr.notDigit d other

/-- Without a point there is an exponent behind the digits. -/
theorem readNumber_whole (isStored : p.IsStored) (limit : x.natAbs ≤ exponentLimit)
    (none : p.fraction = []) (fits : digitsValue p.whole ≤ naturalLimit) (negative : Bool)
    (hc : c.rest = text ++ rest) (hr : Breaks rest) :
    ∃ c', c'.rest = rest ∧ readNumber negative c = realNumber negative
      (digitsValue p.whole) p.exponent c' := by
  obtain ⟨tail, exponent⟩ : p.tail = Layout.exponentText x ∧ p.exponent = x :=
    isStored.exponent.resolve_left fun h => (isStored.marked.resolve_left (absurd none)) h.1
  have first : gather naturalLimit 0 p.whole = (digitsValue p.whole, []) := gather_eq fits
  have faces : c.Faces p.whole (Layout.exponentText x ++ rest) := by
    refine ⟨?_, p.whole_digits, p.whole_ne, tail ▸ notDigit_tail p hr⟩
    rw [p.text_eq] at hc
    simpa [Literal.pointed, none, tail] using hc
  obtain ⟨taken, after⟩ := faces.taken
  obtain ⟨d, more, front, digit, leads⟩ := faces.first
  obtain ⟨c', left, read⟩ := exponentPart_eq (n := digitsValue p.whole) (e := 0) limit after hr
  refine ⟨c', left, ?_⟩
  have mark : (c.skip p.whole.length).rest =
      'e' :: ((if x < 0 then ['-'] else ['+']) ++ Nat.toDigits 10 x.natAbs ++ rest) := after
  unfold readNumber
  simp only [taken, first, mark]
  simp only [front, digit, leads isStored.leads, Bool.not_true, Bool.false_eq_true, if_false]
  rw [exponent]
  refine Eq.trans read ?_
  congr 1
  exact Int.zero_add x

theorem readNumber_pointed (isStored : p.IsStored) (limit : x.natAbs ≤ exponentLimit)
    (some : p.fraction ≠ []) (fits : digitsValue (p.whole ++ p.fraction) ≤ naturalLimit)
    (negative : Bool) (hc : c.rest = text ++ rest) (hr : Breaks rest) :
    ∃ c', c'.rest = rest ∧ readNumber negative c =
      realNumber negative (digitsValue (p.whole ++ p.fraction))
        (p.exponent - p.fraction.length) c' := by
  rw [digitsValue_append] at fits ⊢
  have first : gather naturalLimit 0 p.whole = (digitsValue p.whole, []) :=
    gather_eq (Nat.le_trans (le_ofDigitChars _ _) fits)
  have second : gather naturalLimit (digitsValue p.whole) p.fraction =
      (Nat.ofDigitChars 10 p.fraction (digitsValue p.whole), []) := gather_eq fits
  have faces : c.Faces p.whole ('.' :: (p.fraction ++ (p.tail ++ rest))) := by
    refine ⟨?_, p.whole_digits, p.whole_ne, ?_⟩
    · rw [p.text_eq] at hc
      simpa [Literal.pointed, some] using hc
    · simp only [List.head?_cons, Option.mem_some_iff, forall_eq']
      decide
  obtain ⟨taken, after⟩ := faces.taken
  obtain ⟨d, more, front, digit, leads⟩ := faces.first
  have faces' : ((c.skip p.whole.length).skip 1).Faces p.fraction (p.tail ++ rest) :=
    ⟨by rw [skip_rest, after]; rfl, p.fraction_digits, some, notDigit_tail p hr⟩
  obtain ⟨taken', after'⟩ := faces'.taken
  obtain ⟨d', more', front', -⟩ := faces'.first
  obtain ⟨c', left, read⟩ := afterDigits_eq isStored limit negative
    (Nat.ofDigitChars 10 p.fraction (digitsValue p.whole))
      ((0 : Nat) - (p.fraction.length - 0 : Nat)) after' hr
  refine ⟨c', left, ?_⟩
  unfold readNumber
  simp only [taken, first, after, taken', second]
  simp only [front, front', digit, leads isStored.leads, some, Bool.not_true, Bool.false_eq_true,
    if_false]
  refine Eq.trans read ?_
  congr 1
  omega

theorem readNumber_parts (isStored : p.IsStored) (limit : x.natAbs ≤ exponentLimit)
    (fits : digitsValue (p.whole ++ p.fraction) ≤ naturalLimit) (negative : Bool)
    (hc : c.rest = text ++ rest) (hr : Breaks rest) : ∃ c', c'.rest = rest ∧ readNumber negative c =
      realNumber negative (digitsValue (p.whole ++ p.fraction))
        (p.exponent - p.fraction.length) c' := by
  by_cases none : p.fraction = []
  · rw [none, List.append_nil] at fits ⊢
    obtain ⟨c', left, read⟩ := readNumber_whole isStored limit none fits negative hc hr
    refine ⟨c', left, read.trans ?_⟩
    congr 1
    exact (Int.sub_zero _).symm
  · exact readNumber_pointed isStored limit none fits negative hc hr

end Parts

/-! ### Stored numbers -/

theorem realNumber_outcome (negative : Bool) (n : Nat) (e : Int) (c : Cursor) :
    Outcome (realNumber negative n e c) c.rest
    ((scale (.ofNat n) e).map fun x => .real (if negative then x.neg else x)) := by
  unfold realNumber
  cases scale (.ofNat n) e with
  | none => exact ⟨_, rfl⟩
  | some x => exact ⟨c, rfl, rfl⟩

theorem scale_zero : scale (.ofNat 0) (-1) = some .zero := by
  rw [scale, if_pos (by decide), if_neg (by decide)]
  decide +kernel

theorem readNumber_zero (negative : Bool) (hc : c.rest = ['0', '.', '0'] ++ rest)
    (hr : Breaks rest) :
    Outcome (readNumber negative c) rest (some (.real (.finite negative .zero))) := by
  have isStored : (Layout.placesPoint (x := 0) (AllDigits.zeros 1) (by simp) (Int.le_refl 0)
      (by simp)).IsStored :=
    ⟨rfl, fun _ => rfl, .inl (by simp [Layout.placesPoint]), .inl ⟨rfl, rfl⟩⟩
  obtain ⟨c', left, read⟩ :=
    readNumber_parts isStored (Nat.zero_le _) (Nat.zero_le _) negative hc hr
  rw [read]
  have outcome := realNumber_outcome negative 0 (-1) c'
  rw [scale_zero, left] at outcome
  cases negative <;> exact outcome

theorem readNumber_magnitude {m : Magnitude} (hm : m.significand ≠ 0) (negative : Bool)
    (hc : c.rest = Layout.stored.magnitude m ++ rest) (hr : Breaks rest) :
    Outcome (readNumber negative c) rest ((Double.finite negative m).reread.map .real) := by
  obtain ⟨ds, x, p, isStored, limit, digits, exponent⟩ := Layout.exists_written hm
  obtain ⟨c', left, read⟩ :=
    readNumber_parts isStored limit (digits ▸ Magnitude.written_le hm) negative hc hr
  have outcome := realNumber_outcome negative m.written.digits m.written.exponent c'
  rw [read, digits, exponent, Double.reread, if_neg hm, Option.map_map, ← left]
  exact outcome

/-- The spelling of a stored number: its sign, and something that starts with a digit and is
read. -/
theorem stored_write (negative : Bool) (m : Magnitude) : ∃ d more,
    Layout.stored.write (.finite negative m) = (if negative then ['-'] else []) ++ d :: more ∧
    isDigit d = true ∧
      ∀ (c : Cursor) (rest : List Char), c.rest = d :: more ++ rest → Breaks rest →
        Outcome (readNumber negative c) rest ((Double.finite negative m).reread.map .real) := by
  by_cases hm : m.significand = 0
  · refine ⟨'0', ['.', '0'], ?_, rfl, fun c rest hc hr => ?_⟩
    · rw [Layout.write, if_pos hm]
      cases negative <;> rfl
    · rw [Double.reread, if_pos hm, Magnitude.eq_zero_of_significand hm]
      exact readNumber_zero negative hc hr
  · obtain ⟨ds, x, p, -⟩ := Layout.exists_written hm
    cases whole : p.whole with
    | nil => exact absurd whole p.whole_ne
    | cons d more =>
      have text := p.text_eq
      rw [whole, List.cons_append] at text
      refine ⟨d, more ++ (Literal.pointed p.fraction ++ p.tail), ?_,
        p.whole_digits d (whole ▸ List.mem_cons_self), fun c rest hc hr => ?_⟩
      · rw [Layout.write, if_neg hm]
        exact congrArg _ text
      · exact readNumber_magnitude hm negative (hc.trans (congrArg (· ++ rest) text.symm)) hr

end StoryPreview.Json.Cursor
