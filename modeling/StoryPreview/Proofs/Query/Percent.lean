import StoryPreview.Query.Percent
import StoryPreview.Proofs.Text.Utf8
/-!
Percent escapes read back. Escapes are written with letters, digits and `%` only, and a text whose
`%` are all escaped is the bytes of the text again, by the lenient reading and by the strict one.
Reading makes no text longer.
-/
namespace StoryPreview.Percent

def upperDigit (n : Nat) : Char := (Nat.digitChar n).toUpper

theorem hexDigit?_upperDigit {n : Nat} (h : n < 16) : hexDigit? (upperDigit n) = some n := by
  have all : ∀ k < 16, hexDigit? (upperDigit k) = some k := by decide
  exact all n h

theorem isAlphanumeric_upperDigit {n : Nat} (h : n < 16) :
    isAlphanumeric (upperDigit n) = true := by
  have all : ∀ k < 16, isAlphanumeric (upperDigit k) = true := by decide
  exact all n h

theorem alphanumeric_lt {c : Char} (h : isAlphanumeric c = true) : c.toNat < 128 := by
  simp only [isAlphanumeric, Bool.or_eq_true, Bool.and_eq_true, decide_eq_true_eq, Char.le_def,
    UInt32.le_iff_toNat_le] at h
  have bounds : ('9').val.toNat = 57 ∧ ('Z').val.toNat = 90 ∧ ('z').val.toNat = 122 := by decide
  simp only [Char.toNat]
  omega

theorem escapeByte_eq (b : UInt8) :
    escapeByte b = ['%', upperDigit (b.toNat / 16), upperDigit (b.toNat % 16)] := rfl

theorem digits_lt (b : UInt8) : b.toNat / 16 < 16 ∧ b.toNat % 16 < 16 := by
  have hb := b.toNat_lt
  omega

/-- A character of an encoded text is one that is kept, or belongs to an escape. -/
theorem mem_encode {keep : Char → Bool} {cs : List Char} {c : Char} (h : c ∈ encode keep cs) :
    keep c = true ∧ c ∈ cs ∨ c = '%' ∨ isAlphanumeric c = true := by
  simp only [encode, List.mem_flatMap] at h
  obtain ⟨d, hd, hc⟩ := h
  split at hc
  · rename_i hk
    rw [List.mem_singleton] at hc
    subst hc
    exact .inl ⟨hk, hd⟩
  · rw [List.mem_flatMap] at hc
    obtain ⟨b, -, hb⟩ := hc
    rw [escapeByte_eq] at hb
    simp only [List.mem_cons, List.not_mem_nil, or_false] at hb
    rcases hb with rfl | rfl | rfl
    · exact .inr (.inl rfl)
    · exact .inr (.inr (isAlphanumeric_upperDigit (digits_lt b).1))
    · exact .inr (.inr (isAlphanumeric_upperDigit (digits_lt b).2))

theorem encode_cons (keep : Char → Bool) (c : Char) (cs : List Char) :
    encode keep (c :: cs) =
      (if keep c then [c] else (String.utf8EncodeChar c).flatMap escapeByte) ++ encode keep cs :=
  List.flatMap_cons

theorem encode_eq_self {keep : Char → Bool} {cs : List Char} (h : ∀ c ∈ cs, keep c = true) :
    encode keep cs = cs := by
  induction cs with
  | nil => rfl
  | cons c cs ih =>
    rw [encode_cons, if_pos (h c (List.mem_cons_self ..)),
      ih fun d hd => h d (List.mem_cons_of_mem c hd)]
    rfl

theorem bytes_cons {c : Char} (h : c ≠ '%') (cs : List Char) :
    bytes (c :: cs) = String.utf8EncodeChar c ++ bytes cs := by
  rw [bytes]
  intro a b rest heq
  exact absurd heq h

theorem bytes_append_of_notMem {cs : List Char} (h : '%' ∉ cs) (ds : List Char) :
    bytes (cs ++ ds) = Utf8.encode cs ++ bytes ds := by
  induction cs with
  | nil => rfl
  | cons c cs ih =>
    simp only [List.mem_cons, not_or] at h
    rw [List.cons_append, bytes_cons (Ne.symm h.1), ih h.2, Utf8.encode_cons, List.append_assoc]

/-- Two characters of which not both are digits. -/
theorem none_or_none {a b : Char}
    (no : ∀ x y, hexDigit? a = some x → hexDigit? b = some y → False) :
    hexDigit? a = none ∨ hexDigit? b = none := by
  cases ha : hexDigit? a with
  | none => exact .inl rfl
  | some x =>
    cases hb : hexDigit? b with
    | none => exact .inr rfl
    | some y => exact (no x y ha hb).elim

theorem bytes_percent {cs : List Char}
    (h : ∀ a b rest, cs = a :: b :: rest → hexDigit? a = none ∨ hexDigit? b = none) :
    bytes ('%' :: cs) = 37 :: bytes cs := by
  match cs with
  | [] => rfl
  | [a] => rfl
  | a :: b :: rest =>
    rw [bytes]
    cases h a b rest rfl with
    | inl ha => rw [ha]
    | inr hb =>
      rw [hb]
      cases hexDigit? a <;> rfl

/-- No escape reaches over a character that is no digit. -/
theorem bytes_append_cons {c : Char} (hc : hexDigit? c = none) (cs ds : List Char) :
    bytes (cs ++ c :: ds) = bytes cs ++ bytes (c :: ds) := by
  fun_induction bytes cs with
  | case1 => rfl
  | case2 a b rest x y hb ha ih =>
    simp only [List.cons_append, bytes, ha, hb]
    rw [ih]
  | case3 a b rest no ih =>
    have broken := none_or_none no
    have next : bytes ('%' :: a :: b :: (rest ++ c :: ds)) =
        37 :: bytes (a :: b :: (rest ++ c :: ds)) :=
      bytes_percent fun a' b' rest' he => by
        cases he
        exact broken
    simp only [List.cons_append] at ih ⊢
    rw [next, ih]
  | case4 d rest short ih =>
    by_cases hd : d = '%'
    · subst hd
      have next : bytes ('%' :: (rest ++ c :: ds)) = 37 :: bytes (rest ++ c :: ds) := by
        refine bytes_percent fun a b more he => ?_
        match rest with
        | [] =>
          cases he
          exact .inl hc
        | [_] =>
          cases he
          exact .inr hc
        | a :: b :: rest => exact (short a b rest rfl rfl).elim
      rw [List.cons_append, next, ih]
      rfl
    · rw [List.cons_append, bytes_cons hd, ih, List.append_assoc]

theorem bytes_escapeByte (b : UInt8) (cs : List Char) :
    bytes (escapeByte b ++ cs) = b :: bytes cs := by
  obtain ⟨high, low⟩ := digits_lt b
  have value : 16 * (b.toNat / 16) + b.toNat % 16 = b.toNat := by omega
  rw [escapeByte_eq, List.cons_append, List.cons_append, List.cons_append, List.nil_append, bytes,
    hexDigit?_upperDigit high, hexDigit?_upperDigit low]
  simp only [value, UInt8.ofNat_toNat]

theorem bytes_escapes (bs : List UInt8) (cs : List Char) :
    bytes (bs.flatMap escapeByte ++ cs) = bs ++ bytes cs := by
  induction bs with
  | nil => rfl
  | cons b bs ih => rw [List.flatMap_cons, List.append_assoc, bytes_escapeByte, ih,
    List.cons_append]

theorem bytes_encode_append {keep : Char → Bool} (h : keep '%' = false) (cs ds : List Char) :
    bytes (encode keep cs ++ ds) = Utf8.encode cs ++ bytes ds := by
  induction cs with
  | nil => rfl
  | cons c cs ih =>
    rw [encode_cons, Utf8.encode_cons, List.append_assoc, List.append_assoc]
    split
    · rename_i hk
      have hc : c ≠ '%' := fun he => by simp [he, h] at hk
      rw [List.cons_append, List.nil_append, bytes_cons hc, ih]
    · rw [bytes_escapes, ih]

theorem bytes_encode {keep : Char → Bool} (h : keep '%' = false) (cs : List Char) :
    bytes (encode keep cs) = Utf8.encode cs := by
  have key := bytes_encode_append h cs []
  rwa [List.append_nil, bytes, List.append_nil] at key

theorem wellFormed_cons {c : Char} (h : c ≠ '%') (cs : List Char) :
    wellFormed (c :: cs) = wellFormed cs := by
  rw [wellFormed]
  intro heq
  exact absurd heq h

theorem wellFormed_escapes (bs : List UInt8) (cs : List Char) :
    wellFormed (bs.flatMap escapeByte ++ cs) = wellFormed cs := by
  induction bs with
  | nil => rfl
  | cons b bs ih =>
    obtain ⟨high, low⟩ := digits_lt b
    rw [List.flatMap_cons, List.append_assoc, escapeByte_eq, List.cons_append, List.cons_append,
      List.cons_append, List.nil_append, wellFormed]
    simp only [hexDigit?_upperDigit high, hexDigit?_upperDigit low, Option.isSome_some,
      Bool.true_and, ih]

theorem wellFormed_encode {keep : Char → Bool} (h : keep '%' = false) (cs : List Char) :
    wellFormed (encode keep cs) = true := by
  induction cs with
  | nil => rfl
  | cons c cs ih =>
    rw [encode_cons]
    split
    · rename_i hk
      have hc : c ≠ '%' := fun he => by simp [he, h] at hk
      rw [List.cons_append, List.nil_append, wellFormed_cons hc, ih]
    · rw [wellFormed_escapes, ih]

theorem decodeComponent?_encodeComponent (cs : List Char) :
    decodeComponent? (encodeComponent cs) = some cs := by
  have percent : isComponentChar '%' = false := by decide
  rw [decodeComponent?, encodeComponent, if_pos (wellFormed_encode percent cs),
    bytes_encode percent, Utf8.decode?_encode]

/-! ### Lengths -/

/-- No more characters start in the bytes of a text than the text has. -/
theorem starts_bytes (cs : List Char) : Utf8.starts (bytes cs) ≤ cs.length := by
  fun_induction bytes cs with
  | case1 => exact Nat.le_refl 0
  | case2 a b rest x y ha hb ih =>
    have := Utf8.starts_cons_le (UInt8.ofNat (16 * x + y)) (bytes rest)
    simp only [List.length_cons]
    omega
  | case3 a b rest no ih =>
    have := Utf8.starts_cons_le 37 (bytes (a :: b :: rest))
    simp only [List.length_cons] at ih ⊢
    omega
  | case4 c rest short ih =>
    have := Utf8.starts_encodeChar c
    rw [Utf8.starts_append, List.length_cons]
    omega

theorem length_le_of_decodeComponent? {cs ds : List Char} (h : decodeComponent? cs = some ds) :
    ds.length ≤ cs.length := by
  unfold decodeComponent? at h
  split at h
  · exact Nat.le_trans (Utf8.length_le_starts h) (starts_bytes cs)
  · cases h

end StoryPreview.Percent
