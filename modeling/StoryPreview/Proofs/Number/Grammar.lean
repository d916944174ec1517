import Mathlib.Data.List.TakeWhile
import StoryPreview.Proofs.Number.Reading
/-!
The grammar of decimal literals, said apart from the scanner: a sign or none, digits with a point or
without, a power of ten or none. In its one pass the scanner takes the longest literal at the start
of a text, and a text is read as a whole exactly if it is a literal.
-/
namespace StoryPreview.Literal

inductive Sign : List Char → Bool → Prop where
  | none : Sign [] false
  | plus : Sign ['+'] false
  | minus : Sign ['-'] true

inductive Mantissa : List Char → List Char → List Char → Prop where
  | whole {ds : List Char} : AllDigits ds → ds ≠ [] → Mantissa ds ds []
  | pointed {ds es : List Char} : AllDigits ds → ds ≠ [] → AllDigits es →
    Mantissa (ds ++ '.' :: es) ds es
  | fraction {es : List Char} : AllDigits es → es ≠ [] → Mantissa ('.' :: es) [] es

inductive Power : List Char → Int → Prop where
  | none : Power [] 0
  | marked {mark : Char} {sign ds : List Char} {negative : Bool} : mark = 'e' ∨ mark = 'E' →
      Sign sign negative → AllDigits ds → ds ≠ [] →
      Power (mark :: (sign ++ ds)) (if negative then -(digitsValue ds : Int) else digitsValue ds)

inductive Spells : List Char → Literal → Prop where
  | parts {sign mantissa power whole fraction : List Char} {negative : Bool}
      {exponent : Int} : Sign sign negative →
      Mantissa mantissa whole fraction → Power power exponent →
      Spells (sign ++ (mantissa ++ power)) ⟨negative, whole, fraction, exponent⟩

variable {cs rest p q r ds es whole fraction mantissa : List Char} {l l' : Literal}
    {negative : Bool} {exponent : Int}

/-! ### What is scanned is a literal -/

theorem allDigits_takeWhile (cs : List Char) : AllDigits (cs.takeWhile isDigit) :=
  fun _ h => List.mem_takeWhile_imp h

theorem exists_sign (cs : List Char) : ∃ sign, cs = sign ++ (scanSign cs).2 ∧
    Sign sign (scanSign cs).1 := by
  unfold scanSign
  split
  · exact ⟨['-'], rfl, .minus⟩
  · exact ⟨['+'], rfl, .plus⟩
  · exact ⟨[], rfl, .none⟩

theorem exists_power (cs : List Char) : ∃ power, cs = power ++ (scanExponent cs).2 ∧
    Power power (scanExponent cs).1 := by
  unfold scanExponent
  split
  · exact ⟨[], rfl, .none⟩
  · rename_i mark after
    split
    · rename_i marked
      obtain ⟨sign, eq, isSign⟩ := exists_sign after
      simp only
      split
      · exact ⟨[], rfl, .none⟩
      · rename_i some
        have digits : AllDigits ((scanSign after).2.takeWhile isDigit) := allDigits_takeWhile _
        refine ⟨_, ?_, .marked (by simpa using marked) isSign digits some⟩
        rw [List.cons_append, List.append_assoc, List.takeWhile_append_dropWhile, ← eq]
    · exact ⟨[], rfl, .none⟩

/-- A fraction starts with its point, and without a point there is none. -/
theorem scanFraction_cases (cs : List Char) :
    (∃ es, AllDigits es ∧ cs = '.' :: (es ++ (scanFraction cs).2) ∧ (scanFraction cs).1 = es) ∨
      scanFraction cs = ([], cs) := by
  unfold scanFraction
  split
  · exact .inl ⟨_, allDigits_takeWhile _, by rw [List.takeWhile_append_dropWhile], rfl⟩
  · exact .inr rfl

theorem scanExponent_suffix (cs : List Char) : (scanExponent cs).2 <:+ cs := by
  obtain ⟨power, eq, -⟩ := exists_power cs
  exact ⟨power, eq.symm⟩

theorem scanFraction_suffix (cs : List Char) : (scanFraction cs).2 <:+ cs := by
  obtain ⟨es, -, eq, -⟩ | none := scanFraction_cases cs
  · exact ⟨'.' :: es, eq.symm⟩
  · simp only [none, List.suffix_refl]

theorem spells_of_scan (h : scan cs = some (l, rest)) : ∃ p, cs = p ++ rest ∧ Spells p l := by
  obtain ⟨sign, eq, isSign⟩ := exists_sign cs
  simp only [scan] at h
  split at h
  · cases h
  · rename_i some
    obtain ⟨rfl, rfl⟩ := Prod.mk.inj (Option.some.inj h)
    generalize (scanSign cs).2 = body at eq some
    obtain ⟨power, eq', isPower⟩ := exists_power (scanFraction (body.dropWhile isDigit)).2
    have digits := allDigits_takeWhile body
    have split : body.takeWhile isDigit ++ body.dropWhile isDigit = body :=
      List.takeWhile_append_dropWhile
    obtain ⟨es, isDigits, point, fraction⟩ | none := scanFraction_cases (body.dropWhile isDigit)
    · refine ⟨sign ++ ((body.takeWhile isDigit ++ '.' :: es) ++ power), ?_,
        .parts isSign ?_ isPower⟩
      · simp only [List.append_assoc, List.cons_append]
        rw [← eq', ← point, split]
        exact eq
      · rw [fraction] at some ⊢
        by_cases whole : body.takeWhile isDigit = []
        · rw [whole]
          exact .fraction isDigits fun none => some ⟨whole, none⟩
        · exact .pointed digits whole isDigits
    · refine ⟨sign ++ (body.takeWhile isDigit ++ power), ?_, .parts isSign ?_ isPower⟩
      · rw [none] at eq' ⊢
        rw [List.append_assoc, List.append_assoc, ← eq', split]
        exact eq
      · rw [none] at some ⊢
        exact .whole digits fun none => some ⟨none, rfl⟩

/-! ### A literal is scanned to its end -/

theorem Sign.scan (h : Sign p negative) (start : ∀ c ∈ cs.head?, c ≠ '+' ∧ c ≠ '-') :
    scanSign (p ++ cs) = (negative, cs) := by
  cases h with
  | plus => rfl
  | minus => rfl
  | none =>
    cases cs with
    | nil => rfl
    | cons c cs =>
      obtain ⟨plus, minus⟩ := start c rfl
      simp [scanSign, plus, minus]

theorem notSign_of_digits (h : AllDigits ds) (some : ds ≠ []) (cs : List Char) :
    ∀ c ∈ (ds ++ cs).head?, c ≠ '+' ∧ c ≠ '-' := by
  intro c hc
  rw [List.head?_append_of_ne_nil _ some] at hc
  have digit := h c (List.mem_of_mem_head? hc)
  constructor <;> rintro rfl <;> exact absurd digit (by decide)

theorem Mantissa.start (h : Mantissa mantissa whole fraction) (cs : List Char) :
    ∀ c ∈ (mantissa ++ cs).head?, c ≠ '+' ∧ c ≠ '-' := by
  cases h with
  | whole digits some => exact notSign_of_digits digits some cs
  | pointed digits some _ =>
    rw [List.append_assoc]
    exact notSign_of_digits digits some _
  | fraction _ _ =>
    intro c hc
    obtain rfl : '.' = c := Option.some.inj hc
    decide

theorem Power.head (h : Power p exponent) : ∀ c ∈ p.head?, c = 'e' ∨ c = 'E' := by
  cases h with
  | none => simp
  | marked mark _ _ _ =>
    intro c hc
    obtain rfl := Option.some.inj hc
    exact mark

theorem Power.notDigit (h : Power p exponent) : ∀ c ∈ p.head?, isDigit c = false := by
  intro c hc
  obtain rfl | rfl := h.head c hc <;> decide

/-- A power of ten is scanned with the digits that follow it. -/
theorem Power.scan (h : Power p exponent) (written : p ≠ []) :
    (scanExponent (p ++ r)).2 = r.dropWhile isDigit := by
  cases h with
  | none => exact absurd rfl written
  | @marked mark sign ds negative isMark isSign digits some =>
    have marked : (mark == 'e' || mark == 'E') = true := by simpa using isMark
    have signed : scanSign (sign ++ ds ++ r) = (negative, ds ++ r) := by
      rw [List.append_assoc]
      exact isSign.scan (notSign_of_digits digits some r)
    have taken : (ds ++ r).takeWhile isDigit = ds ++ r.takeWhile isDigit :=
      List.takeWhile_append_of_pos digits
    simp only [List.cons_append, scanExponent, marked, if_true, signed, taken]
    split
    · rename_i none
      exact absurd (List.append_eq_nil_iff.1 none).1 some
    · exact List.dropWhile_append_of_pos digits

/-- Behind digits, whatever a power of ten leaves is left of what follows it. -/
theorem Power.reach (h : Power p exponent) (hd : AllDigits ds) :
    (scanExponent ((ds ++ (p ++ r)).dropWhile isDigit)).2 <:+ r ∧
      (scanExponent (scanFraction ((ds ++ (p ++ r)).dropWhile isDigit)).2).2 <:+ r := by
  rw [List.dropWhile_append_of_pos hd]
  have left : r.dropWhile isDigit <:+ r := List.dropWhile_suffix isDigit
  by_cases none : p = []
  · rw [none, List.nil_append]
    exact ⟨(scanExponent_suffix _).trans left,
      ((scanExponent_suffix _).trans (scanFraction_suffix _)).trans left⟩
  · have scanned := h.scan none (r := r)
    obtain ⟨mark, tail, rfl⟩ := List.exists_cons_of_ne_nil none
    have isMark : mark = 'e' ∨ mark = 'E' := h.head mark rfl
    have stays : (mark :: tail ++ r).dropWhile isDigit = mark :: tail ++ r :=
      List.dropWhile_cons_of_neg (by simp [h.notDigit mark rfl])
    have point : scanFraction (mark :: tail ++ r) = ([], mark :: tail ++ r) := by
      obtain rfl | rfl := isMark <;> rfl
    rw [stays, point, scanned]
    exact ⟨left, left⟩

/-- Where a literal stands at the start of a text, one is scanned that is as long at least. -/
theorem Spells.reach (h : Spells p l) (r : List Char) : ∃ l' rest, scan (p ++ r) = some (l', rest) ∧
    rest <:+ r := by
  obtain ⟨isSign, isMantissa, isPower⟩ := h
  rename_i sign mantissa power whole fraction negative exponent
  have signed := isSign.scan (isMantissa.start (power ++ r))
  rw [List.append_assoc, List.append_assoc]
  simp only [scan, signed]
  cases isMantissa with
  | whole digits some =>
    have taken : (mantissa ++ (power ++ r)).takeWhile isDigit = mantissa ++
        (power ++ r).takeWhile isDigit :=
      List.takeWhile_append_of_pos digits
    rw [if_neg fun none => some (List.append_eq_nil_iff.1 (taken ▸ none.1)).1]
    exact ⟨_, _, rfl, (isPower.reach digits).2⟩
  | pointed digits some more =>
    have point : ∀ c ∈ ('.' :: (fraction ++ (power ++ r))).head?, isDigit c = false := by
      simp; decide
    obtain ⟨taken, dropped⟩ := digits.scan point
    simp only [List.append_assoc, List.cons_append, taken, dropped, scanFraction, some, false_and,
      if_false]
    exact ⟨_, _, rfl, (isPower.reach more).1⟩
  | fraction more some =>
    have taken : (fraction ++ (power ++ r)).takeWhile isDigit = fraction ++
        (power ++ r).takeWhile isDigit :=
      List.takeWhile_append_of_pos more
    have point : isDigit '.' = false := by decide
    simp only [List.cons_append, List.takeWhile_cons, List.dropWhile_cons, point,
      Bool.false_eq_true, if_false, scanFraction]
    rw [if_neg fun none => some (List.append_eq_nil_iff.1 (taken ▸ none.2)).1]
    exact ⟨_, _, rfl, (isPower.reach more).1⟩

theorem Power.scanExponent (h : Power p exponent) : scanExponent p = (exponent, []) := by
  cases h with
  | none => rfl
  | @marked mark sign ds negative isMark isSign digits some =>
    have marked : (mark == 'e' || mark == 'E') = true := by simpa using isMark
    have signed : scanSign (sign ++ ds) = (negative, ds) := by
      have scanned := isSign.scan (notSign_of_digits digits some [])
      rwa [List.append_nil] at scanned
    simp only [Literal.scanExponent, marked, if_true, signed, digits.scanAll]

theorem Power.scanFraction (h : Power p exponent) : scanFraction p = ([], p) := by
  cases h with
  | none => rfl
  | marked isMark _ _ _ => obtain rfl | rfl := isMark <;> rfl

theorem Spells.scan (h : Spells p l) : scan p = some (l, []) := by
  obtain ⟨isSign, isMantissa, isPower⟩ := h
  rename_i sign mantissa power whole fraction negative exponent
  have signed := isSign.scan (isMantissa.start power)
  have behind {ds : List Char} (digits : AllDigits ds) := digits.scan isPower.notDigit
  simp only [Literal.scan, signed]
  cases isMantissa with
  | whole digits some =>
    simp only [behind digits, isPower.scanFraction, isPower.scanExponent, some, false_and, if_false]
  | pointed digits some more =>
    have point : ∀ c ∈ ('.' :: (fraction ++ power)).head?, isDigit c = false := by simp; decide
    have scanned := digits.scan point
    simp only [List.append_assoc, List.cons_append, scanned, Literal.scanFraction, behind more,
      isPower.scanExponent, some, false_and, if_false]
  | fraction more some =>
    have point : isDigit '.' = false := by decide
    simp only [List.cons_append, List.takeWhile_cons, List.dropWhile_cons, point,
      Bool.false_eq_true, if_false, Literal.scanFraction, behind more, isPower.scanExponent, some,
      and_false]

/-- A text is read as a whole exactly if it is a literal. -/
theorem read?_eq_some_iff : read? cs = some l ↔ Spells cs l := by
  constructor
  · intro h
    unfold read? at h
    split at h
    · rename_i scanned
      obtain ⟨p, rfl, spells⟩ := spells_of_scan scanned
      rw [List.append_nil, ← Option.some.inj h]
      exact spells
    · cases h
  · intro h
    rw [read?, h.scan]

/-! ### The longest literal -/

structure IsLongest (cs p : List Char) (l : Literal) : Prop where
  starts : p <+: cs
  spells : Spells p l
  longest : ∀ q l', q <+: cs → Spells q l' → q.length ≤ p.length

/-- The scanner takes the longest literal. -/
theorem isLongest_of_scan (h : scan cs = some (l, rest)) :
    ∃ p, cs = p ++ rest ∧ IsLongest cs p l := by
  obtain ⟨p, rfl, spells⟩ := spells_of_scan h
  refine ⟨p, rfl, ⟨rest, rfl⟩, spells, ?_⟩
  rintro q l' ⟨r, eq⟩ spells'
  obtain ⟨l₂, rest₂, scanned, left⟩ := spells'.reach r
  rw [eq, h] at scanned
  obtain ⟨-, rfl⟩ := Prod.mk.inj (Option.some.inj scanned)
  have lengths := congrArg List.length eq
  rw [List.length_append, List.length_append] at lengths
  have := left.length_le
  omega

/-- Where nothing is scanned, no literal stands at the start. -/
theorem not_spells_of_scan (h : scan cs = none) (hq : q <+: cs) : ¬ Spells q l := by
  intro spells
  obtain ⟨r, rfl⟩ := hq
  obtain ⟨l', rest, scanned, -⟩ := spells.reach r
  rw [h] at scanned
  cases scanned

end StoryPreview.Literal
