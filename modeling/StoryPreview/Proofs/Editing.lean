import StoryPreview.Editor
import StoryPreview.Proofs.Number.Closest
import StoryPreview.Proofs.Number.Grammar
import StoryPreview.Proofs.Text.Decoding
/-!
A control for numbers takes as much of its text as is a number. The prefixes are tried from the
longest on, and the one that is taken is what a scanner takes that goes through the text once: no
word for infinity or NaN is a number here, and no literal is passed over.
-/
namespace StoryPreview

/-! ### The prefixes -/

namespace Input
variable {α : Type} {cs p q : List Char} {c : Char} {x : α} {f : List Char → Option α}

theorem mem_prefixes : p ∈ prefixes cs ↔ p ≠ [] ∧ p <+: cs := by
  induction cs generalizing p with
  | nil => simp [prefixes]
  | cons c cs ih =>
    rw [prefixes, List.mem_append, List.mem_map, List.mem_singleton]
    constructor
    · rintro (⟨q, hq, rfl⟩ | rfl)
      · exact ⟨List.cons_ne_nil c q, (List.prefix_cons_inj c).2 (ih.1 hq).2⟩
      · exact ⟨List.cons_ne_nil c [], (List.prefix_cons_inj c).2 List.nil_prefix⟩
    · rintro ⟨some, start⟩
      obtain ⟨d, q, rfl⟩ := List.exists_cons_of_ne_nil some
      obtain ⟨rfl, rest⟩ := List.cons_prefix_cons.1 start
      by_cases none : q = []
      · exact .inr (by rw [none])
      · exact .inl ⟨q, ih.2 ⟨none, rest⟩, rfl⟩

/-- The first prefix that is found is the longest that there is to find. -/
theorem findSome?_prefixes (some : p ≠ []) (start : p <+: cs) (found : f p = .some x)
    (longest : ∀ q, q <+: cs → p.length < q.length → f q = none) :
    (prefixes cs).findSome? f = .some x := by
  induction cs generalizing p f with
  | nil => exact absurd (List.prefix_nil.1 start) some
  | cons c cs ih =>
    obtain ⟨d, p, rfl⟩ := List.exists_cons_of_ne_nil some
    obtain ⟨rfl, rest⟩ := List.cons_prefix_cons.1 start
    rw [prefixes, List.findSome?_append, List.findSome?_map]
    by_cases none : p = []
    · subst none
      have shorter : (prefixes cs).findSome? (f ∘ (d :: ·)) = .none := by
        refine List.findSome?_eq_none_iff.2 fun q hq => ?_
        obtain ⟨more, start⟩ := mem_prefixes.1 hq
        exact longest (d :: q) ((List.prefix_cons_inj d).2 start)
          (by simpa using List.length_pos_iff.2 more)
      simp [shorter, found]
    · have longer := ih (f := f ∘ (d :: ·)) none rest found fun q hq more =>
        longest (d :: q) ((List.prefix_cons_inj d).2 hq) (by simpa using more)
      simp [longer]

def ends (start : Nat) : List Char → List Nat
  | [] => []
  | c :: cs =>
    (start + (String.utf8EncodeChar c).length) :: ends (start + (String.utf8EncodeChar c).length) cs

def sliceTo? : Nat → List Char → Option (List Char)
  | 0, _ => some []
  | _ + 1, [] => none
  | n + 1, c :: cs =>
    let size := (String.utf8EncodeChar c).length
    if size ≤ n + 1 then (sliceTo? (n + 1 - size) cs).map (c :: ·) else none

theorem length_encode_cons (c : Char) (cs : List Char) :
    (Utf8.encode (c :: cs)).length = (String.utf8EncodeChar c).length +
      (Utf8.encode cs).length := by
  rw [Utf8.encode_cons, List.length_append]

theorem sliceTo?_encode (p r : List Char) : sliceTo? (Utf8.encode p).length (p ++ r) = some p := by
  induction p with
  | nil => cases r <;> rfl
  | cons c p ih =>
    obtain ⟨b, bs, bytes, -⟩ := Utf8.step_encodeChar c
    have count : (Utf8.encode (c :: p)).length = bs.length + (Utf8.encode p).length + 1 := by
      rw [length_encode_cons, bytes, List.length_cons]
      omega
    have left : bs.length + (Utf8.encode p).length + 1 - (bs.length + 1) =
      (Utf8.encode p).length := by omega
    rw [count, List.cons_append, sliceTo?, bytes, List.length_cons, if_pos (by omega), left, ih]
    rfl

theorem ends_reverse (start : Nat) (cs : List Char) :
    (ends start cs).reverse = (prefixes cs).map fun p => start + (Utf8.encode p).length := by
  induction cs generalizing start with
  | nil => rfl
  | cons c cs ih =>
    rw [ends, List.reverse_cons, ih, prefixes, List.map_append, List.map_map]
    congr 1
    · refine List.map_congr_left fun p _ => ?_
      rw [Function.comp_apply, length_encode_cons, Nat.add_assoc]
    · rw [List.map_singleton, length_encode_cons]
      rfl

/-- A slice that ends where a character ends is a prefix, so all that are tried are there. -/
theorem slices_eq (cs : List Char) :
    (ends 0 cs).reverse.map (sliceTo? · cs) = (prefixes cs).map some := by
  rw [ends_reverse, List.map_map]
  refine List.map_congr_left fun p hp => ?_
  obtain ⟨r, rfl⟩ := (mem_prefixes.1 hp).2
  rw [Function.comp_apply, Nat.zero_add, sliceTo?_encode]

end Input

/-! ### Words and literals -/

namespace Literal
variable {cs p r : List Char} {l : Literal} {c : Char}

theorem Spells.isDigit_or_mem (h : Spells p l) :
    ∀ c ∈ p, isDigit c = true ∨ c ∈ ['+', '-', '.', 'e', 'E'] := by
  obtain ⟨isSign, isMantissa, isPower⟩ := h
  have signs {sign : List Char} {negative : Bool} (h : Sign sign negative) : ∀ c ∈ sign,
      c ∈ ['+', '-', '.', 'e', 'E'] := by
    cases h <;> simp
  intro c hc
  simp only [List.mem_append] at hc
  obtain hc | hc | hc := hc
  · exact .inr (signs isSign c hc)
  · cases isMantissa with
    | whole digits _ => exact .inl (digits c hc)
    | pointed digits _ more =>
      simp only [List.mem_append, List.mem_cons] at hc
      obtain hc | rfl | hc := hc
      · exact .inl (digits c hc)
      · exact .inr (by decide)
      · exact .inl (more c hc)
    | fraction more _ =>
      obtain rfl | hc := List.mem_cons.1 hc
      · exact .inr (by decide)
      · exact .inl (more c hc)
  · cases isPower with
    | none => cases hc
    | marked mark isSign digits _ =>
      simp only [List.mem_cons, List.mem_append] at hc
      obtain rfl | hc | hc := hc
      · obtain rfl | rfl := mark <;> exact .inr (by decide)
      · exact .inr (signs isSign c hc)
      · exact .inl (digits c hc)

end Literal

namespace Input
variable {cs p r : List Char} {l : Literal} {x : Double}

theorem mem_of_occurs {word : List Char} {c : Char} (hc : c ∈ word) (h : occurs word cs = true) :
    c ∈ cs := by
  induction cs with
  | nil => simp [List.isEmpty_iff.1 h] at hc
  | cons d cs ih =>
    rw [occurs, Bool.or_eq_true] at h
    obtain start | later := h
    · exact (List.isPrefixOf_iff_prefix.1 start).subset hc
    · exact List.mem_cons_of_mem d (ih later)

theorem mem_of_isBarred (h : isBarred cs = true) : 'n' ∈ lowerAscii cs := by
  simp only [isBarred, Bool.or_eq_true] at h
  obtain ((start | start) | start) | occurs := h
  · exact (List.isPrefixOf_iff_prefix.1 start).subset (by decide)
  · exact (List.isPrefixOf_iff_prefix.1 start).subset (by decide)
  · exact (List.isPrefixOf_iff_prefix.1 start).subset (by decide)
  · exact mem_of_occurs (by decide) occurs

theorem toLower_of_isDigit {c : Char} (h : isDigit c = true) : c.toLower = c := by
  simp only [isDigit, Bool.and_eq_true, decide_eq_true_eq, Char.le_def] at h
  have upper : ¬ (c.val ≥ 'A'.val ∧ c.val ≤ 'Z'.val) := by
    rintro ⟨above, -⟩
    exact absurd (UInt32.le_trans above h.2) (by decide)
  exact dif_neg upper

theorem isBarred_of_spells (h : Literal.Spells p l) : isBarred p = false := by
  refine Bool.eq_false_iff.2 fun barred => ?_
  obtain ⟨c, hc, lower⟩ := List.mem_map.1 (mem_of_isBarred barred)
  obtain digit | other := h.isDigit_or_mem c hc
  · rw [toLower_of_isDigit digit] at lower
    rw [lower] at digit
    exact absurd digit (by decide)
  · simp only [List.mem_cons, List.not_mem_nil, or_false] at other
    obtain rfl | rfl | rfl | rfl | rfl := other <;> exact absurd lower (by decide)

/-- What a word for infinity or NaN is behind its sign. -/
theorem lower_of_readWord? (h : (Double.readWord? p).isSome = true) :
    lowerAscii (Literal.scanSign p).2 = "inf".toList ∨
    lowerAscii (Literal.scanSign p).2 = "infinity".toList ∨
    lowerAscii (Literal.scanSign p).2 = "nan".toList := by
  unfold Double.readWord? at h
  simp only at h
  split at h
  · rename_i infinity
    exact infinity.elim .inl fun long => .inr (.inl long)
  · split at h
    · rename_i nan
      exact .inr (.inr nan)
    · cases h

theorem isBarred_of_readWord? (h : (Double.readWord? p).isSome = true) : isBarred p = true := by
  obtain ⟨sign, eq, isSign⟩ := Literal.exists_sign p
  have words := lower_of_readWord? h
  have lower : lowerAscii p = lowerAscii sign ++ lowerAscii (Literal.scanSign p).2 := by
    rw [lowerAscii, lowerAscii, lowerAscii, ← List.map_append, ← eq]
  rw [isBarred, lower]
  generalize (Literal.scanSign p).1 = negative at isSign
  obtain word | word | word := words <;> rw [word] <;> cases isSign <;> decide

theorem read?_eq (p : List Char) :
    (if isBarred p then none else Double.read? p) = (Literal.read? p).map Literal.value := by
  cases read : Literal.read? p with
  | some l =>
    rw [isBarred_of_spells (Literal.read?_eq_some_iff.1 read), Double.read?, read]
    rfl
  | none =>
    rw [Double.read?, read]
    cases word : Double.readWord? p with
    | none => split <;> rfl
    | some x =>
      rw [isBarred_of_readWord? (Option.isSome_of_eq_some word)]
      rfl

/-- The prefixes are searched for what the scanner takes. -/
theorem longestNumber?_eq (cs : List Char) : longestNumber? cs = (Literal.scan cs).map fun found =>
    found.1.value := by
  rw [longestNumber?]
  simp only [read?_eq]
  cases scanned : Literal.scan cs with
  | none =>
    refine List.findSome?_eq_none_iff.2 fun p hp => Option.map_eq_none_iff.2 ?_
    refine Option.eq_none_iff_forall_ne_some.2 fun l read => ?_
    exact Literal.not_spells_of_scan scanned (mem_prefixes.1 hp).2
      (Literal.read?_eq_some_iff.1 read)
  | some found =>
    obtain ⟨l, rest⟩ := found
    obtain ⟨p, -, isLongest⟩ := Literal.isLongest_of_scan scanned
    have read : Literal.read? p = some l := Literal.read?_eq_some_iff.2 isLongest.spells
    have some : p ≠ [] := by
      rintro rfl
      cases read
    refine findSome?_prefixes some isLongest.starts (by rw [read]; rfl) fun q start longer =>
      Option.map_eq_none_iff.2 ?_
    refine Option.eq_none_iff_forall_ne_some.2 fun l' read' => ?_
    exact absurd (isLongest.longest q l' start (Literal.read?_eq_some_iff.1 read'))
      (Nat.not_le.2 longer)

/-- Where a word for infinity or NaN stands at the start, there is no literal. -/
theorem scan_eq_none_of_word (h : (Double.readWord? p).isSome = true) (r : List Char) :
    Literal.scan (p ++ r) = none := by
  obtain ⟨sign, eq, isSign⟩ := Literal.exists_sign p
  obtain ⟨c, w, word, letter⟩ : ∃ c w, (Literal.scanSign p).2 = c :: w ∧
      (c.toLower = 'i' ∨ c.toLower = 'n') := by
    have words := lower_of_readWord? h
    cases word : (Literal.scanSign p).2 with
    | nil =>
      rw [word] at words
      obtain none | none | none := words <;> cases none
    | cons c w =>
      rw [word] at words
      obtain first | first | first := words
      · exact ⟨c, w, rfl, .inl (List.cons.inj first).1⟩
      · exact ⟨c, w, rfl, .inl (List.cons.inj first).1⟩
      · exact ⟨c, w, rfl, .inr (List.cons.inj first).1⟩
  have digit : isDigit c = false := by
    refine Bool.eq_false_iff.2 fun digit => ?_
    rw [toLower_of_isDigit digit] at letter
    obtain rfl | rfl := letter <;> exact absurd digit (by decide)
  have other (d : Char) (hd : d.toLower ≠ 'i' ∧ d.toLower ≠ 'n') : c ≠ d := by
    rintro rfl
    exact letter.elim hd.1 hd.2
  have point : Literal.scanFraction (c :: (w ++ r)) = ([], c :: (w ++ r)) := by
    have := other '.' (by decide)
    simp [Literal.scanFraction, this]
  have signed : Literal.scanSign (sign ++ (c :: w ++ r)) = ((Literal.scanSign p).1,
      c :: w ++ r) := by
    refine isSign.scan fun d hd => ?_
    obtain rfl : c = d := Option.some.inj hd
    exact ⟨other '+' (by decide), other '-' (by decide)⟩
  rw [word] at eq
  rw [eq, List.append_assoc, Literal.scan, signed]
  simp [digit, point]

end Input

/-! ### What a control gives -/

namespace Input

/-- The number that stands at the start of a text: what is read of the longest literal there, and
zero without a sign if that is zero or there is none. -/
inductive Leading (cs : List Char) : Double → Prop where
  | literal {p : List Char} {l : Literal} : Literal.IsLongest cs p l → l.value.IsNearest l.exact →
      l.value.isZero = false → Leading cs l.value
  | zero {p : List Char} {l : Literal} : Literal.IsLongest cs p l → l.value.IsNearest l.exact →
      l.value.isZero = true → Leading cs .zero
  | none : (∀ p l, p <+: cs → ¬ Literal.Spells p l) → Leading cs .zero

def scanned (cs : List Char) : Double :=
  match Literal.scan cs with
  | some (l, _) => if l.value.isZero then .zero else l.value
  | none => .zero

variable {cs p : List Char}

theorem value_ne_nan (l : Literal) : l.value ≠ .nan := by
  intro nan
  have nearest := l.isNearest_value
  rw [nan] at nearest
  exact nearest

/-- The search among the prefixes gives what one pass gives. -/
theorem leadingNumber_eq (cs : List Char) : leadingNumber cs = scanned (Text.trimStart cs) := by
  rw [leadingNumber, longestNumber?_eq, scanned]
  cases Literal.scan (Text.trimStart cs) with
  | none => rfl
  | some found => simp only [Option.map_some, value_ne_nan, false_or]

theorem leading_scanned (cs : List Char) : Leading cs (scanned cs) := by
  rw [scanned]
  cases found : Literal.scan cs with
  | none => exact .none fun p l start => Literal.not_spells_of_scan found start
  | some taken =>
    obtain ⟨l, rest⟩ := taken
    obtain ⟨p, -, isLongest⟩ := Literal.isLongest_of_scan found
    simp only
    split
    · rename_i zero
      exact .zero isLongest l.isNearest_value zero
    · rename_i some
      exact .literal isLongest l.isNearest_value (Bool.eq_false_iff.2 some)

namespace Leading
variable {x y : Double}

theorem unique (h : Leading cs x) (h' : Leading cs y) : x = y := by
  have same {p q : List Char} {l l' : Literal} (h : Literal.IsLongest cs p l)
      (h' : Literal.IsLongest cs q l') : l = l' := by
    have texts : p = q :=
      (List.prefix_of_prefix_length_le h.starts h'.starts
        (h'.longest p l h.starts h.spells)).eq_of_length
      (Nat.le_antisymm (h'.longest p l h.starts h.spells) (h.longest q l' h'.starts h'.spells))
    have read := Literal.read?_eq_some_iff.2 h.spells
    rw [texts, Literal.read?_eq_some_iff.2 h'.spells] at read
    exact (Option.some.inj read).symm
  cases h with
  | literal longest _ some =>
    cases h' with
    | literal longest' _ _ => rw [same longest longest']
    | zero longest' _ zero =>
      rw [← same longest longest', some] at zero
      cases zero
    | none absent => exact absurd longest.spells (absent _ _ longest.starts)
  | zero longest _ zero =>
    cases h' with
    | literal longest' _ some =>
      rw [← same longest longest', zero] at some
      cases some
    | zero _ _ _ => rfl
    | none _ => rfl
  | none absent =>
    cases h' with
    | literal longest' _ _ => exact absurd longest'.spells (absent _ _ longest'.starts)
    | zero _ _ _ => rfl
    | none _ => rfl

theorem ne_nan (h : Leading cs x) : x ≠ .nan := by
  cases h with
  | literal _ _ _ => exact value_ne_nan _
  | zero _ _ _ => decide
  | none _ => decide

theorem eq_zero (h : Leading cs x) (zero : x.isZero = true) : x = .zero := by
  cases h with
  | literal _ _ some =>
    rw [some] at zero
    cases zero
  | zero _ _ _ => rfl
  | none _ => rfl

theorem of_word (h : Leading cs x) (start : p <+: cs) (word : (Double.readWord? p).isSome = true) :
    x = .zero := by
  obtain ⟨r, rfl⟩ := start
  have none := scan_eq_none_of_word word r
  cases h with
  | literal longest _ _ =>
    exact absurd longest.spells (Literal.not_spells_of_scan none longest.starts)
  | zero _ _ _ => rfl
  | none _ => rfl

end Leading

/-- A control for numbers gives what one pass from the left takes: what is read of the longest
literal behind the blanks. It gives no NaN and no negative zero, the words for infinity and NaN are
no numbers, and each prefix that is tried ends with a character. -/
theorem number_value (s : String) : ∃ x, (number s).value = .number x ∧
    (∀ y, Leading (Text.trimStart s.toList) y ↔ y = x) ∧ x = scanned (Text.trimStart s.toList) ∧
    x ≠ .nan ∧ x ≠ .finite true .zero ∧
    (∀ p, p <+: Text.trimStart s.toList → (Double.readWord? p).isSome = true → isBarred p = true ∧
      x = .zero) ∧
    (ends 0 (Text.trimStart s.toList)).reverse.map (sliceTo? · (Text.trimStart s.toList)) =
      (prefixes (Text.trimStart s.toList)).map some := by
  have leading := leading_scanned (Text.trimStart s.toList)
  refine ⟨_, by rw [value, leadingNumber_eq],
    fun y => ⟨fun other => other.unique leading, fun same => same ▸ leading⟩, rfl, leading.ne_nan,
    fun negative => ?_, fun p start word =>
      ⟨isBarred_of_readWord? word, leading.of_word start word⟩, slices_eq _⟩
  have zero := leading.eq_zero (by rw [negative]; rfl)
  rw [negative] at zero
  exact absurd zero (by decide)

end Input
end StoryPreview
