import StoryPreview.Proofs.Query.Percent
import StoryPreview.Proofs.Text.Decoding
/-!
What the strict reading of escapes accepts: the texts in which each `%` that is met starts an
escape, if the bytes are UTF-8. Bytes are looked at, not characters: first all the bytes of the text
are gone through for escapes, by their index, and then another pass reads the escapes leniently.
Both see the same escapes, for no byte of a longer character is a `%` or a digit.
-/
namespace StoryPreview.Percent

/-- What a text says if each `%` that is met from the left starts an escape: the bytes of the
escapes, and of the other characters. -/
inductive Reads : List Char → List UInt8 → Prop where
  | nil : Reads [] []
  | escape {a b : Char} {cs : List Char} {high low : Nat} {bs : List UInt8} : hexDigit? a =
      some high → hexDigit? b = some low →
      Reads cs bs → Reads ('%' :: a :: b :: cs) (UInt8.ofNat (16 * high + low) :: bs)
  | plain {c : Char} {cs : List Char} {bs : List UInt8} : c ≠ '%' → Reads cs bs →
      Reads (c :: cs) (String.utf8EncodeChar c ++ bs)

inductive IsComponent : List Char → Prop where
  | nil : IsComponent []
  | kept {c : Char} {cs : List Char} : isComponentChar c = true → IsComponent cs →
    IsComponent (c :: cs)
  | escape {a b : Char} {cs : List Char} : (hexDigit? a).isSome = true →
      (hexDigit? b).isSome = true → IsComponent cs → IsComponent ('%' :: a :: b :: cs)

/-! ### The passes over bytes -/

def hexByte? (b : UInt8) : Option Nat :=
  if 48 ≤ b ∧ b ≤ 57 then some (b.toNat - 48)
  else if 97 ≤ b ∧ b ≤ 102 then some (b.toNat - 87)
  else if 65 ≤ b ∧ b ≤ 70 then some (b.toNat - 55)
  else none

def slice? (bs : List UInt8) (low high : Nat) : Option (List UInt8) :=
  if low ≤ high ∧ high ≤ bs.length then some ((bs.take high).drop low) else none

def scan (bs : List UInt8) (index : Nat) : Bool :=
  if h : index < bs.length then
    if bs[index] = 37 then
      match slice? bs (index + 1) (index + 3) with
      | some hex => hex.all (fun b => (hexByte? b).isSome) && scan bs (index + 3)
      | none => false
    else scan bs (index + 1)
  else true
termination_by bs.length - index

def unescape : List UInt8 → List UInt8
  | [] => []
  | 37 :: a :: b :: rest =>
    match hexByte? a, hexByte? b with
    | some x, some y => UInt8.ofNat (16 * x + y) :: unescape rest
    | _, _ => 37 :: unescape (a :: b :: rest)
  | b :: rest => b :: unescape rest

variable {cs : List Char} {a b c : Char} {x y : UInt8} {bs pre rest : List UInt8}

/-! ### The bytes of a character -/

theorem encodeChar_ascii (h : c.toNat < 128) : String.utf8EncodeChar c = [UInt8.ofNat c.toNat] := by
  have one := Utf8.encodeChar_one (.inl (by omega)) h (Utf8.toNat_ofNat (by omega))
  rwa [Char.ofNat_toNat] at one

theorem high_of_mem (h : 128 ≤ c.toNat) (hx : x ∈ String.utf8EncodeChar c) : 128 ≤ x.toNat := by
  have number : c.val.toNat = c.toNat := rfl
  have above {n : Nat} (low : 128 ≤ n) (fits : n < 256) : 128 ≤ (UInt8.ofNat n).toNat := by
    rwa [Utf8.toNat_ofNat fits]
  simp only [String.utf8EncodeChar, number] at hx
  rw [if_neg (by omega)] at hx
  split at hx
  · simp only [List.mem_cons, List.not_mem_nil, or_false] at hx
    obtain rfl | rfl := hx <;> exact above (by omega) (by omega)
  · split at hx
    · simp only [List.mem_cons, List.not_mem_nil, or_false] at hx
      obtain rfl | rfl | rfl := hx <;> exact above (by omega) (by omega)
    · simp only [List.mem_cons, List.not_mem_nil, or_false] at hx
      obtain rfl | rfl | rfl | rfl := hx <;> exact above (by omega) (by omega)

theorem hexByte?_high (h : 128 ≤ x.toNat) : hexByte? x = none := by
  simp only [hexByte?, UInt8.le_iff_toNat_le, UInt8.reduceToNat]
  rw [if_neg (by omega), if_neg (by omega), if_neg (by omega)]

theorem hexDigit?_eq (c : Char) : hexDigit? c =
    if 48 ≤ c.toNat ∧ c.toNat ≤ 57 then some (c.toNat - 48)
    else if 97 ≤ c.toNat ∧ c.toNat ≤ 102 then some (c.toNat - 87)
    else if 65 ≤ c.toNat ∧ c.toNat ≤ 70 then some (c.toNat - 55)
    else none := by
  simp only [hexDigit?, Char.le_def, UInt32.le_iff_toNat_le]
  rfl

theorem hexDigit?_high (h : 128 ≤ c.toNat) : hexDigit? c = none := by
  rw [hexDigit?_eq, if_neg (by omega), if_neg (by omega), if_neg (by omega)]

/-- A character of one byte is a digit exactly if the byte is one. -/
theorem hexByte?_ascii (h : c.toNat < 128) : hexByte? (UInt8.ofNat c.toNat) = hexDigit? c := by
  have number : (UInt8.ofNat c.toNat).toNat = c.toNat := Utf8.toNat_ofNat (by omega)
  simp only [hexByte?, UInt8.le_iff_toNat_le, UInt8.reduceToNat, number]
  exact (hexDigit?_eq c).symm

/-- A character is one byte, which is a digit if the character is one, or its bytes are no digits
and no `%`. -/
theorem encodeChar_cases (c : Char) :
    (∃ x, String.utf8EncodeChar c = [x] ∧ hexByte? x = hexDigit? c ∧ (x = 37 ↔ c = '%')) ∨
      ∃ x bs, String.utf8EncodeChar c = x :: bs ∧ hexByte? x = none ∧ hexDigit? c = none ∧ c ≠ '%' ∧
      37 ∉ x :: bs := by
  rcases Nat.lt_or_ge c.toNat 128 with ascii | high
  · have number : (UInt8.ofNat c.toNat).toNat = c.toNat := Utf8.toNat_ofNat (by omega)
    refine .inl ⟨_, encodeChar_ascii ascii, hexByte?_ascii ascii, ?_⟩
    rw [← UInt8.toNat_inj, number, ← Char.toNat_inj]
    rfl
  · obtain ⟨x, bs, bytes, -⟩ := Utf8.step_encodeChar c
    have above {y : UInt8} (hy : y ∈ x :: bs) : 128 ≤ y.toNat := high_of_mem high (bytes ▸ hy)
    refine .inr ⟨x, bs, bytes, hexByte?_high (above List.mem_cons_self), hexDigit?_high high, ?_,
      fun percent => ?_⟩
    · rintro rfl
      exact absurd high (by decide)
    · exact absurd (above percent) (by decide)

theorem encode_digits (ha : (hexDigit? a).isSome = true) (hb : (hexDigit? b).isSome = true)
    (more : List Char) :
    ∃ x y, Utf8.encode (a :: b :: more) = x :: y :: Utf8.encode more ∧ hexByte? x = hexDigit? a ∧
    hexByte? y = hexDigit? b := by
  obtain ⟨x, first, digit, -⟩ | ⟨x, bs, -, -, none, -⟩ := encodeChar_cases a
  · obtain ⟨y, second, digit', -⟩ | ⟨y, bs, -, -, none, -⟩ := encodeChar_cases b
    · exact ⟨x, y, by rw [Utf8.encode_cons, Utf8.encode_cons, first, second]; rfl, digit, digit'⟩
    · simp [none] at hb
  · simp [none] at ha

/-- Where no two digits follow, none follow among the bytes. -/
theorem encode_broken
    (h : ∀ a b more, cs = a :: b :: more → hexDigit? a = none ∨ hexDigit? b = none) :
    ∀ x y rest, Utf8.encode cs = x :: y :: rest → hexByte? x = none ∨ hexByte? y = none := by
  intro x y rest bytes
  match cs with
  | [] => cases bytes
  | a :: cs =>
    rw [Utf8.encode_cons] at bytes
    obtain ⟨x', first, digit, -⟩ | ⟨x', bs, first, none, -⟩ := encodeChar_cases a
    · rw [first] at bytes
      obtain ⟨rfl, after⟩ := List.cons.inj bytes
      match cs with
      | [] => cases after
      | b :: more =>
        change Utf8.encode (b :: more) = y :: rest at after
        rw [Utf8.encode_cons] at after
        obtain ⟨y', second, digit', -⟩ | ⟨y', bs', second, none', -⟩ := encodeChar_cases b
        · rw [second] at after
          obtain ⟨rfl, -⟩ := List.cons.inj after
          rw [digit, digit']
          exact h a b more rfl
        · rw [second] at after
          obtain ⟨rfl, -⟩ := List.cons.inj after
          exact .inr none'
    · rw [first] at bytes
      obtain ⟨rfl, -⟩ := List.cons.inj bytes
      exact .inl none

/-! ### The scan by index -/

theorem scan_end (pre : List UInt8) : scan pre pre.length = true := by
  rw [scan, dif_neg (Nat.lt_irrefl _)]

theorem scan_skip (h : 37 ∉ bs) (pre : List UInt8) :
    scan (pre ++ (bs ++ rest)) pre.length = scan (pre ++ (bs ++ rest)) (pre ++ bs).length := by
  induction bs generalizing pre with
  | nil => rw [List.append_nil]
  | cons x bs ih =>
    obtain ⟨other, later⟩ : ¬ 37 = x ∧ 37 ∉ bs := by simpa using h
    have inside : pre.length < (pre ++ (x :: bs ++ rest)).length := by simp
    have here : (pre ++ (x :: bs ++ rest))[pre.length] = x := by simp
    have next := ih later (pre ++ [x])
    simp only [List.append_assoc, List.singleton_append, List.length_append, List.length_singleton]
      at next
    rw [scan, dif_pos inside, here, if_neg (Ne.symm other)]
    simpa [Nat.add_assoc, Nat.add_comm, Nat.add_left_comm] using next

theorem scan_digits (hx : (hexByte? x).isSome = true) (hy : (hexByte? y).isSome = true) :
    scan (pre ++ 37 :: x :: y :: rest) pre.length = scan (pre ++ 37 :: x :: y :: rest)
      (pre ++ [37, x, y]).length := by
  have inside : pre.length < (pre ++ 37 :: x :: y :: rest).length := by simp
  have here : (pre ++ 37 :: x :: y :: rest)[pre.length] = 37 := by simp
  have two : slice? (pre ++ 37 :: x :: y :: rest) (pre.length + 1) (pre.length + 3) =
      some [x, y] := by
    rw [slice?, if_pos (by simp)]
    simp [List.take_append, List.drop_append]
  rw [scan, dif_pos inside, if_pos here, two]
  simp [hx, hy]

theorem scan_broken
    (h : ∀ x y more, rest = x :: y :: more → hexByte? x = none ∨ hexByte? y = none) :
    scan (pre ++ 37 :: rest) pre.length = false := by
  have inside : pre.length < (pre ++ 37 :: rest).length := by simp
  have here : (pre ++ 37 :: rest)[pre.length] = 37 := by simp
  rw [scan, dif_pos inside, if_pos here]
  match rest with
  | [] => simp [slice?]
  | [x] => simp [slice?]
  | x :: y :: more =>
    have two : slice? (pre ++ 37 :: x :: y :: more) (pre.length + 1) (pre.length + 3) =
        some [x, y] := by
      rw [slice?, if_pos (by simp)]
      simp [List.take_append, List.drop_append]
    rw [two]
    obtain none | none := h x y more rfl <;> simp [none]

theorem encode_percent (cs : List Char) : Utf8.encode ('%' :: cs) = 37 :: Utf8.encode cs := rfl

theorem percent_notMem (h : c ≠ '%') : 37 ∉ String.utf8EncodeChar c := by
  obtain ⟨x, bytes, -, same⟩ | ⟨x, bs, bytes, -, -, -, others⟩ := encodeChar_cases c
  · rw [bytes, List.mem_singleton]
    exact fun percent => h (same.1 percent.symm)
  · rwa [bytes]

/-- The scan of the bytes behind a text finds what there is among the characters. -/
theorem scan_append (pre : List UInt8) (cs : List Char) :
    scan (pre ++ Utf8.encode cs) pre.length = wellFormed cs := by
  fun_induction wellFormed cs generalizing pre with
  | case1 => exact (congrArg (scan · pre.length) (List.append_nil pre)).trans (scan_end pre)
  | case2 a b more ih =>
    by_cases digits : (hexDigit? a).isSome = true ∧ (hexDigit? b).isSome = true
    · obtain ⟨x, y, bytes, first, second⟩ := encode_digits digits.1 digits.2 more
      have next := ih (pre ++ [37, x, y])
      rw [List.append_assoc] at next
      rw [encode_percent, bytes, scan_digits (first ▸ digits.1) (second ▸ digits.2)]
      simpa [digits] using next
    · have broken : hexDigit? a = none ∨ hexDigit? b = none :=
        none_or_none fun x y ha hb => digits ⟨Option.isSome_of_eq_some ha,
          Option.isSome_of_eq_some hb⟩
      rw [encode_percent, scan_broken (encode_broken fun a' b' more' same =>
        by cases same; exact broken)]
      obtain none | none := broken <;> simp [none]
  | case3 rest short =>
    rw [encode_percent, scan_broken (encode_broken fun a b more same => (short a b more same).elim)]
  | case4 c rest other ih =>
    have next := ih (pre ++ String.utf8EncodeChar c)
    rw [List.append_assoc] at next
    rw [Utf8.encode_cons, scan_skip (percent_notMem fun percent => other percent), next]

/-! ### The lenient pass -/

theorem unescape_cons (h : x ≠ 37) (bs : List UInt8) : unescape (x :: bs) = x :: unescape bs := by
  rw [unescape]
  intro a b rest percent
  exact absurd percent h

theorem unescape_skip (h : 37 ∉ bs) (rest : List UInt8) :
    unescape (bs ++ rest) = bs ++ unescape rest := by
  induction bs with
  | nil => rfl
  | cons x bs ih =>
    obtain ⟨other, later⟩ : ¬ 37 = x ∧ 37 ∉ bs := by simpa using h
    rw [List.cons_append, unescape_cons (Ne.symm other), ih later, List.cons_append]

theorem unescape_broken
    (h : ∀ x y more, rest = x :: y :: more → hexByte? x = none ∨ hexByte? y = none) :
    unescape (37 :: rest) = 37 :: unescape rest := by
  match rest with
  | [] => rfl
  | [x] => rfl
  | x :: y :: more =>
    rw [unescape]
    obtain none | none := h x y more rfl
    · rw [none]
    · rw [none]
      cases hexByte? x <;> rfl

/-- The lenient pass reads the escapes that there are among the characters. -/
theorem unescape_encode (cs : List Char) : unescape (Utf8.encode cs) = bytes cs := by
  fun_induction bytes cs with
  | case1 => rfl
  | case2 a b rest high low hb ha ih =>
    obtain ⟨x, y, after, first, second⟩ :=
      encode_digits (Option.isSome_of_eq_some ha) (Option.isSome_of_eq_some hb) rest
    rw [encode_percent, after, unescape]
    simp only [first, second, ha, hb, ih]
  | case3 a b rest no ih =>
    have broken := none_or_none no
    rw [encode_percent, unescape_broken (encode_broken fun a' b' more' same =>
      by cases same; exact broken), ih]
  | case4 c rest short ih =>
    by_cases percent : c = '%'
    · subst percent
      rw [encode_percent, unescape_broken (encode_broken fun a b more same =>
        (short a b more rfl same).elim), ih]
      rfl
    · rw [Utf8.encode_cons, unescape_skip (percent_notMem percent), ih]

/-! ### The language -/

theorem reads_iff : Reads cs bs ↔ wellFormed cs = true ∧ bytes cs = bs := by
  constructor
  · intro h
    induction h with
    | nil => exact ⟨rfl, rfl⟩
    | escape ha hb _ ih => simp [wellFormed, bytes, ha, hb, ih]
    | plain other _ ih =>
      rw [wellFormed_cons other, bytes_cons other, ih.2]
      exact ⟨ih.1, rfl⟩
  · rintro ⟨formed, rfl⟩
    fun_induction wellFormed cs with
    | case1 => exact .nil
    | case2 a b more ih =>
      simp only [Bool.and_eq_true] at formed
      obtain ⟨high, ha⟩ := Option.isSome_iff_exists.1 formed.1.1
      obtain ⟨low, hb⟩ := Option.isSome_iff_exists.1 formed.1.2
      simp only [bytes, ha, hb]
      exact .escape ha hb (ih formed.2)
    | case3 => cases formed
    | case4 c rest other ih =>
      rw [bytes_cons fun percent => other percent]
      exact .plain (fun percent => other percent) (ih formed)

theorem decodeComponent?_eq_some_iff {t : List Char} :
    decodeComponent? cs = some t ↔ Reads cs (Utf8.encode t) := by
  rw [reads_iff, decodeComponent?]
  split
  · rename_i formed
    rw [Utf8.decode?_eq_some_iff]
    exact ⟨fun same => ⟨formed, same⟩, fun h => h.2⟩
  · rename_i broken
    refine ⟨fun h => ?_, fun h => absurd h.1 broken⟩
    cases h

/-- The passes over the bytes read what is read among the characters. -/
theorem decodeComponent?_eq (cs : List Char) : decodeComponent? cs =
    if scan (Utf8.encode cs) 0 then Utf8.decode? (unescape (Utf8.encode cs)) else none := by
  have scanned := scan_append [] cs
  rw [List.nil_append, List.length_nil] at scanned
  rw [scanned, unescape_encode, decodeComponent?]

theorem IsComponent.escapes (h : IsComponent cs) (bs : List UInt8) :
    IsComponent (bs.flatMap escapeByte ++ cs) := by
  induction bs with
  | nil => exact h
  | cons b bs ih =>
    obtain ⟨high, low⟩ := digits_lt b
    rw [List.flatMap_cons, List.append_assoc]
    exact .escape (Option.isSome_of_eq_some (hexDigit?_upperDigit high))
      (Option.isSome_of_eq_some (hexDigit?_upperDigit low)) ih

theorem isComponent_encodeComponent (cs : List Char) : IsComponent (encodeComponent cs) := by
  induction cs with
  | nil => exact .nil
  | cons c cs ih =>
    rw [encodeComponent, encode_cons]
    split
    · rename_i keep
      exact .kept keep ih
    · exact ih.escapes _

/-- The strict reading gives a text exactly if each `%` that is met starts an escape and the bytes
are those of the text. The two passes over bytes agree with it, and what a component was made of is
read of it again. -/
theorem decodeComponent?_language (cs : List Char) :
    (∀ t, decodeComponent? cs = some t ↔ Reads cs (Utf8.encode t)) ∧
      (decodeComponent? cs = none ↔ ∀ t, ¬ Reads cs (Utf8.encode t)) ∧
      decodeComponent? cs = (if scan (Utf8.encode cs) 0
        then Utf8.decode? (unescape (Utf8.encode cs)) else none) ∧
      decodeComponent? (encodeComponent cs) = some cs ∧ IsComponent (encodeComponent cs) := by
  refine ⟨fun _ => decodeComponent?_eq_some_iff, ?_, decodeComponent?_eq cs,
    decodeComponent?_encodeComponent cs, isComponent_encodeComponent cs⟩
  simp only [Option.eq_none_iff_forall_ne_some, ne_eq, decodeComponent?_eq_some_iff]

end StoryPreview.Percent
