import Mathlib.Tactic.SplitIfs
import StoryPreview.Proofs.Text.Utf8
/-!
What the strict reading accepts: bytes are read as a text exactly if they are the bytes of that
text. So the lead bytes and their bounds leave out all that is not UTF-8.
-/
namespace StoryPreview.Utf8

variable {b t : UInt8} {bs rest : List UInt8} {lead : Lead} {bits v x : Nat} {c : Char}

theorem ofNat_of_toNat (b : UInt8) (h : x = b.toNat) :
    UInt8.ofNat x = b := by rw [h, UInt8.ofNat_toNat]

theorem tail_eq (low : 0x80 ≤ t.toNat) (high : t.toNat ≤ 0xBF) :
    t.toNat = 0x80 + tailBits t ∧ tailBits t < 64 := by
  rw [tailBits]
  omega

theorem tail_eq_of_isTail (h : isTail t = true) :
    t.toNat = 0x80 + tailBits t ∧ tailBits t < 64 := by
  simp only [isTail, UInt8.le_iff_toNat_le, Bool.and_eq_true, decide_eq_true_eq] at h
  exact tail_eq h.1 h.2

/-! ### The bytes of a character by its number -/

section
variable (valid : v.isValidChar)
include valid

theorem val_ofNat : (Char.ofNat v).val.toNat = v := by
  rw [Char.ofNat, dif_pos valid]
  rfl

theorem encodeChar_one (h : v < 0x80) (hb : b.toNat = v) :
    String.utf8EncodeChar (Char.ofNat v) = [b] := by
  simp only [String.utf8EncodeChar, val_ofNat valid]
  rw [if_pos (by omega), ofNat_of_toNat b hb.symm]

theorem encodeChar_two (b₁ b₂ : UInt8) (h : 0x80 ≤ v ∧ v < 0x800) (h₁ : b₁.toNat = 0xC0 + v / 64)
    (h₂ : b₂.toNat = 0x80 + v % 64) : String.utf8EncodeChar (Char.ofNat v) = [b₁, b₂] := by
  simp only [String.utf8EncodeChar, val_ofNat valid]
  rw [if_neg (by omega), if_pos (by omega), ofNat_of_toNat b₁ (by omega),
    ofNat_of_toNat b₂ (by omega)]

theorem encodeChar_three (b₁ b₂ b₃ : UInt8) (h : 0x800 ≤ v ∧ v < 0x10000)
    (h₁ : b₁.toNat = 0xE0 + v / 4096) (h₂ : b₂.toNat = 0x80 + v / 64 % 64)
    (h₃ : b₃.toNat = 0x80 + v % 64) : String.utf8EncodeChar (Char.ofNat v) = [b₁, b₂, b₃] := by
  simp only [String.utf8EncodeChar, val_ofNat valid]
  rw [if_neg (by omega), if_neg (by omega), if_pos (by omega), ofNat_of_toNat b₁ (by omega),
    ofNat_of_toNat b₂ (by omega), ofNat_of_toNat b₃ (by omega)]

theorem encodeChar_four (b₁ b₂ b₃ b₄ : UInt8) (h : 0x10000 ≤ v) (h₁ : b₁.toNat = 0xF0 + v / 262144)
    (h₂ : b₂.toNat = 0x80 + v / 4096 % 64) (h₃ : b₃.toNat = 0x80 + v / 64 % 64)
    (h₄ : b₄.toNat = 0x80 + v % 64) :
    String.utf8EncodeChar (Char.ofNat v) = [b₁, b₂, b₃, b₄] := by
  simp only [Nat.isValidChar] at valid
  simp only [String.utf8EncodeChar, val_ofNat valid]
  rw [if_neg (by omega), if_neg (by omega), if_neg (by omega), ofNat_of_toNat b₁ (by omega),
    ofNat_of_toNat b₂ (by omega), ofNat_of_toNat b₃ (by omega), ofNat_of_toNat b₄ (by omega)]

end

/-! ### What one step reads -/

theorem of_takeTails_one (h : takeTails 1 bits bs = (some v, rest)) :
    ∃ t, isTail t = true ∧ bs = t :: rest ∧ v = bits * 64 + tailBits t := by
  cases bs with
  | nil => cases h
  | cons t ts =>
    rw [takeTails] at h
    split at h
    · rename_i tail
      obtain ⟨rfl, rfl⟩ : bits * 64 + tailBits t = v ∧ ts = rest := by simpa [takeTails] using h
      exact ⟨t, tail, rfl, rfl⟩
    · cases h

theorem of_takeTails_two (h : takeTails 2 bits bs = (some v, rest)) :
    ∃ t u, isTail t = true ∧ isTail u = true ∧
    bs = t :: u :: rest ∧ v = (bits * 64 + tailBits t) * 64 + tailBits u := by
  cases bs with
  | nil => cases h
  | cons t ts =>
    rw [takeTails] at h
    split at h
    · rename_i tail
      obtain ⟨u, tail', rfl, rfl⟩ := of_takeTails_one h
      exact ⟨t, u, tail, tail', rfl, rfl⟩
    · cases h

theorem lead?_cases (h : lead? b = some lead) :
    (lead.tails = 1 ∧ b.toNat = 0xC0 + lead.bits ∧ 2 ≤ lead.bits ∧ lead.bits < 32 ∧
      lead.least.toNat = 0x80 ∧
        lead.greatest.toNat = 0xBF) ∨
      (lead.tails = 2 ∧ b.toNat = 0xE0 + lead.bits ∧ lead.bits < 16 ∧
        lead.least.toNat = (if lead.bits = 0 then 0xA0 else 0x80) ∧
        lead.greatest.toNat = if lead.bits = 13 then 0x9F else 0xBF) ∨
      lead.tails = 3 ∧ b.toNat = 0xF0 + lead.bits ∧ lead.bits < 5 ∧
      lead.least.toNat = (if lead.bits = 0 then 0x90 else 0x80) ∧
        lead.greatest.toNat = if lead.bits = 4 then 0x8F else 0xBF := by
  simp only [lead?, UInt8.le_iff_toNat_le, UInt8.reduceToNat, Bool.and_eq_true, decide_eq_true_eq,
    beq_iff_eq, ← UInt8.toNat_inj] at h
  split_ifs at h with two low surrogates three low' four high
  all_goals
    obtain rfl := Option.some.inj h
    simp only [UInt8.reduceToNat]
  · exact .inl ⟨trivial, by omega, by omega, by omega, trivial, trivial⟩
  · exact .inr (.inl (by simpa using low))
  · exact .inr (.inl (by simpa using surrogates))
  · refine .inr (.inl ⟨trivial, by omega, by omega, ?_, ?_⟩)
    · rw [if_neg (by omega)]
    · rw [if_neg (by omega)]
  · exact .inr (.inr (by simpa using low'))
  · refine .inr (.inr ⟨trivial, by omega, by omega, ?_, ?_⟩)
    · rw [if_neg (by omega)]
    · rw [if_neg (by omega)]
  · exact .inr (.inr (by simpa using high))

/-- A character of several bytes is what its bytes promise. -/
theorem encodeChar_of_tails {ts : List UInt8} (isLead : lead? b = some lead)
    (least : lead.least.toNat ≤ t.toNat) (greatest : t.toNat ≤ lead.greatest.toNat)
    (taken : takeTails (lead.tails - 1) (lead.bits * 64 + tailBits t) ts = (some v, rest)) :
    b :: t :: ts = String.utf8EncodeChar (Char.ofNat v) ++ rest := by
  rcases lead?_cases isLead with ⟨tails, number, some, most, low, high⟩ | ⟨tails, number, most, low,
    high⟩ | ⟨tails, number, most, low, high⟩
  · obtain ⟨second, few⟩ := tail_eq (t := t) (by omega) (by omega)
    rw [tails] at taken
    obtain ⟨rfl, rfl⟩ : lead.bits * 64 + tailBits t = v ∧ ts = rest := by
      simpa [takeTails] using taken
    rw [encodeChar_two (.inl (by omega)) b t (by omega) (by omega) (by omega)]
    rfl
  · obtain ⟨second, few⟩ :=
      tail_eq (t := t) (by split at low <;> omega) (by split at high <;> omega)
    rw [tails] at taken
    obtain ⟨u, isTail, rfl, rfl⟩ := of_takeTails_one taken
    obtain ⟨third, few'⟩ := tail_eq_of_isTail isTail
    -- The bounds of the second byte leave out what fits into two bytes, and the surrogates.
    have valid : ((lead.bits * 64 + tailBits t) * 64 + tailBits u).isValidChar := by
      rw [Nat.isValidChar]
      split at high <;> omega
    rw [encodeChar_three valid b t u (by split at low <;> omega) (by omega) (by omega) (by omega)]
    rfl
  · obtain ⟨second, few⟩ :=
      tail_eq (t := t) (by split at low <;> omega) (by split at high <;> omega)
    rw [tails] at taken
    obtain ⟨u, w, isTail, isTail', rfl, rfl⟩ := of_takeTails_two taken
    obtain ⟨third, few'⟩ := tail_eq_of_isTail isTail
    obtain ⟨fourth, few''⟩ := tail_eq_of_isTail isTail'
    have valid : (((lead.bits * 64 + tailBits t) * 64 + tailBits u) * 64 +
        tailBits w).isValidChar := by
      rw [Nat.isValidChar]
      split at low <;> split at high <;> omega
    rw [encodeChar_four valid b t u w (by split at low <;> omega) (by omega) (by omega) (by omega)
      (by omega)]
    rfl

/-- One step reads the bytes of the character that it gives. -/
theorem of_step (h : step b bs = (some c, rest)) : b :: bs = String.utf8EncodeChar c ++ rest := by
  unfold step at h
  split at h
  · rename_i ascii
    rw [UInt8.lt_iff_toNat_lt] at ascii
    obtain ⟨rfl, rfl⟩ : Char.ofNat b.toNat = c ∧ bs = rest := by simpa using h
    rw [encodeChar_one (.inl (Nat.lt_trans ascii (by decide))) ascii rfl]
    rfl
  · split at h
    · rename_i lead t ts isLead
      split at h
      · rename_i second
        simp only [UInt8.le_iff_toNat_le, Bool.and_eq_true, decide_eq_true_eq] at second
        obtain ⟨first, last⟩ := Prod.mk.inj h
        obtain ⟨v, some, rfl⟩ := Option.map_eq_some_iff.1 first
        exact encodeChar_of_tails isLead second.1 second.2 (Prod.ext some last)
      · cases h
    · cases h

/-- Bytes are read as a text exactly if they are its bytes. -/
theorem decode?_eq_some_iff {cs : List Char} : decode? bs = some cs ↔ bs = encode cs := by
  refine ⟨fun h => ?_, fun h => h ▸ decode?_encode cs⟩
  induction bs using decode?.induct generalizing cs with
  | case1 =>
    rw [decode?] at h
    obtain rfl := Option.some.inj h
    rfl
  | case2 b bs short c rest hstep ih =>
    rw [decode?] at h
    split at h
    · rename_i d rest' hstep'
      obtain ⟨ds, hds, rfl⟩ := Option.map_eq_some_iff.1 h
      rw [of_step hstep']
      rw [hstep] at hstep'
      obtain ⟨-, rfl⟩ := Prod.mk.inj hstep'
      rw [ih hds, encode_cons]
    · cases h
  | case3 b bs short rest hstep =>
    rw [decode?] at h
    split at h
    · rename_i hstep'
      rw [hstep] at hstep'
      cases hstep'
    · cases h

end StoryPreview.Utf8
