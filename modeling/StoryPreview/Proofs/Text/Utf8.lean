import StoryPreview.Text.Utf8
/-!
UTF-8 read back: the bytes of a text are the text again, for the strict reading and for the lenient
one. Each character has one byte that is no continuation byte.
-/
namespace StoryPreview.Utf8

theorem encode_cons (c : Char) (cs : List Char) :
    encode (c :: cs) = String.utf8EncodeChar c ++ encode cs :=
  List.flatMap_cons

theorem toNat_ofNat {n : Nat} (h : n < 256) : (UInt8.ofNat n).toNat = n := by
  simp [Nat.mod_eq_of_lt h]

theorem lead?_two {n : Nat} (h : 2 ≤ n) (h' : n < 32) :
    lead? (UInt8.ofNat (n + 0xC0)) = some ⟨1, 0x80, 0xBF, n⟩ := by
  have hn : (UInt8.ofNat (n + 0xC0)).toNat = n + 0xC0 := toNat_ofNat (by omega)
  simp only [lead?, UInt8.le_iff_toNat_le, hn, Bool.and_eq_true, decide_eq_true_eq,
    UInt8.reduceToNat]
  rw [if_pos (by omega)]
  simp only [Option.some.injEq, Lead.mk.injEq, true_and]
  omega

theorem lead?_three {n : Nat} (h : n < 16) : ∃ lead, lead? (UInt8.ofNat (n + 0xE0)) = some lead ∧
    lead.tails = 2 ∧ lead.bits = n ∧ lead.least.toNat = (if n = 0 then 0xA0 else 0x80) ∧
    lead.greatest.toNat = if n = 13 then 0x9F else 0xBF := by
  have hn : (UInt8.ofNat (n + 0xE0)).toNat = n + 0xE0 := toNat_ofNat (by omega)
  simp only [lead?, UInt8.le_iff_toNat_le, hn, Bool.and_eq_true, decide_eq_true_eq,
    UInt8.reduceToNat, beq_iff_eq, ← UInt8.toNat_inj]
  rw [if_neg (by omega)]
  by_cases h0 : n = 0
  · subst h0
    exact ⟨_, rfl, rfl, rfl, rfl, rfl⟩
  · by_cases h1 : n = 13
    · subst h1
      exact ⟨_, rfl, rfl, rfl, rfl, rfl⟩
    · rw [if_neg (by omega), if_neg (by omega), if_pos (by omega)]
      refine ⟨_, rfl, rfl, ?_, ?_, ?_⟩
      · simp only
        omega
      · simp [h0]
      · simp [h1]

theorem lead?_four {n : Nat} (h : n < 5) : ∃ lead, lead? (UInt8.ofNat (n + 0xF0)) = some lead ∧
    lead.tails = 3 ∧ lead.bits = n ∧ lead.least.toNat = (if n = 0 then 0x90 else 0x80) ∧
    lead.greatest.toNat = if n = 4 then 0x8F else 0xBF := by
  match n, h with
  | 0, _ | 1, _ | 2, _ | 3, _ | 4, _ => exact ⟨_, rfl, rfl, rfl, rfl, rfl⟩

theorem isTail_ofNat {n : Nat} (h : n < 64) :
    isTail (UInt8.ofNat (n + 0x80)) = true ∧ tailBits (UInt8.ofNat (n + 0x80)) = n := by
  have hn : (UInt8.ofNat (n + 0x80)).toNat = n + 0x80 := toNat_ofNat (by omega)
  simp only [isTail, tailBits, UInt8.le_iff_toNat_le, hn, UInt8.reduceToNat, Bool.and_eq_true,
    decide_eq_true_eq]
  omega

theorem takeTails_one {n bits : Nat} (h : n < 64) (bs : List UInt8) :
    takeTails 1 bits (UInt8.ofNat (n + 0x80) :: bs) = (some (bits * 64 + n), bs) := by
  rw [takeTails, if_pos (isTail_ofNat h).1, (isTail_ofNat h).2, takeTails]

theorem takeTails_two {n k bits : Nat} (h : n < 64) (h' : k < 64) (bs : List UInt8) :
    takeTails 2 bits (UInt8.ofNat (n + 0x80) :: UInt8.ofNat (k + 0x80) :: bs) =
      (some ((bits * 64 + n) * 64 + k), bs) := by
  rw [takeTails, if_pos (isTail_ofNat h).1, (isTail_ofNat h).2, takeTails_one h']

/-- A character of several bytes starts with its lead byte and a second byte within the bounds of
that. -/
theorem step_lead {b t : UInt8} {lead : Lead} (hb : lead? b = some lead) (h : 0x80 ≤ b.toNat)
    (hl : lead.least.toNat ≤ t.toNat) (hg : t.toNat ≤ lead.greatest.toNat) (ts : List UInt8) :
    step b (t :: ts) =
      ((takeTails (lead.tails - 1) (lead.bits * 64 + tailBits t) ts).1.map Char.ofNat,
        (takeTails (lead.tails - 1) (lead.bits * 64 + tailBits t) ts).2) := by
  have notAscii : ¬b < 0x80 := by
    rw [UInt8.lt_iff_toNat_lt]
    exact Nat.not_lt.2 h
  simp only [step, if_neg notAscii, hb, UInt8.le_iff_toNat_le, hl, hg, decide_true, Bool.and_self,
    if_true]

/-- A character reads its own bytes and leaves those that follow. -/
theorem step_encodeChar (c : Char) : ∃ b bs, String.utf8EncodeChar c = b :: bs ∧
    ∀ rest, step b (bs ++ rest) = (some c, rest) := by
  have valid := c.valid
  have back : Char.ofNat c.val.toNat = c := Char.ofNat_toNat c
  simp only [UInt32.isValidChar, Nat.isValidChar] at valid
  generalize hv : c.val.toNat = v at valid back
  unfold String.utf8EncodeChar
  simp only [hv]
  split
  · rename_i h
    refine ⟨_, _, rfl, fun rest => ?_⟩
    have hn : (UInt8.ofNat v).toNat = v := toNat_ofNat (by omega)
    have ascii : UInt8.ofNat v < 0x80 := by
      rw [UInt8.lt_iff_toNat_lt, hn]
      exact Nat.lt_succ_of_le h
    simp only [step, if_pos ascii, hn, back, List.nil_append]
  · split
    · refine ⟨_, _, rfl, fun rest => ?_⟩
      have hn : (UInt8.ofNat (v / 64 % 32 + 0xC0)).toNat = v / 64 % 32 + 0xC0 :=
        toNat_ofNat (by omega)
      have ht : (UInt8.ofNat (v % 64 + 0x80)).toNat = v % 64 + 0x80 := toNat_ofNat (by omega)
      have char : (v / 64 % 32) * 64 + v % 64 = v := by omega
      rw [List.cons_append, List.nil_append, step_lead (lead?_two (by omega) (by omega)) (by omega)
        (by simp only [ht, UInt8.reduceToNat]; omega) (by simp only [ht, UInt8.reduceToNat]; omega),
        (isTail_ofNat (by omega)).2]
      simp only [Nat.sub_self, takeTails, char, Option.map_some, back]
    · split
      · refine ⟨_, _, rfl, fun rest => ?_⟩
        have hn : (UInt8.ofNat (v / 4096 % 16 + 0xE0)).toNat = v / 4096 % 16 + 0xE0 :=
          toNat_ofNat (by omega)
        have ht : (UInt8.ofNat (v / 64 % 64 + 0x80)).toNat = v / 64 % 64 + 0x80 :=
          toNat_ofNat (by omega)
        have char : ((v / 4096 % 16) * 64 + v / 64 % 64) * 64 + v % 64 = v := by omega
        obtain ⟨lead, hlead, tails, bits, least, greatest⟩ :=
          lead?_three (n := v / 4096 % 16) (by omega)
        rw [List.cons_append, List.cons_append, List.nil_append, step_lead hlead (by omega)
          (by rw [ht, least]; split <;> omega) (by rw [ht, greatest]; split <;> omega),
          (isTail_ofNat (by omega)).2, tails, bits, takeTails_one (by omega), char]
        simp only [Option.map_some, back]
      · refine ⟨_, _, rfl, fun rest => ?_⟩
        have hn : (UInt8.ofNat (v / 262144 % 8 + 0xF0)).toNat = v / 262144 % 8 + 0xF0 :=
          toNat_ofNat (by omega)
        have ht : (UInt8.ofNat (v / 4096 % 64 + 0x80)).toNat = v / 4096 % 64 + 0x80 :=
          toNat_ofNat (by omega)
        have char : (((v / 262144 % 8) * 64 + v / 4096 % 64) * 64 + v / 64 % 64) * 64 + v % 64 =
          v := by omega
        obtain ⟨lead, hlead, tails, bits, least, greatest⟩ :=
          lead?_four (n := v / 262144 % 8) (by omega)
        rw [List.cons_append, List.cons_append, List.cons_append, List.nil_append,
          step_lead hlead (by omega) (by rw [ht, least]; split <;> omega)
          (by rw [ht, greatest]; split <;> omega), (isTail_ofNat (by omega)).2, tails, bits,
          takeTails_two (by omega) (by omega), char]
        simp only [Option.map_some, back]

/-- The bytes of a text are the text, leniently and strictly. -/
theorem decodeLossy_encode_append (cs : List Char) (bs : List UInt8) :
    decodeLossy (encode cs ++ bs) = cs ++ decodeLossy bs := by
  induction cs with
  | nil => rfl
  | cons c cs ih =>
    obtain ⟨b, tail, hc, hstep⟩ := step_encodeChar c
    have bytes : encode (c :: cs) ++ bs = b :: (tail ++ (encode cs ++ bs)) := by
      simp [encode, hc]
    rw [bytes, decodeLossy, hstep, ih]
    rfl

theorem decodeLossy_encode (cs : List Char) : decodeLossy (encode cs) = cs := by
  have h := decodeLossy_encode_append cs []
  rw [List.append_nil] at h
  rw [h, decodeLossy, List.append_nil]

theorem decode?_encode (cs : List Char) : decode? (encode cs) = some cs := by
  induction cs with
  | nil => simp [encode, decode?]
  | cons c cs ih =>
    obtain ⟨b, tail, hc, hstep⟩ := step_encodeChar c
    have bytes : encode (c :: cs) = b :: (tail ++ encode cs) := by simp [encode, hc]
    rw [bytes, decode?]
    split
    · rename_i d rest heq
      rw [hstep] at heq
      cases heq
      rw [ih]
      rfl
    · rename_i rest heq
      rw [hstep] at heq
      cases heq

/-! ### Lengths -/

def starts (bs : List UInt8) : Nat := bs.countP fun b => !isTail b

theorem starts_append (as bs : List UInt8) : starts (as ++ bs) = starts as + starts bs :=
  List.countP_append

theorem starts_cons_of_tail {b : UInt8} (h : isTail b = true) (bs : List UInt8) :
    starts (b :: bs) = starts bs :=
  List.countP_cons_of_neg (by simp [h])

theorem starts_cons_le (b : UInt8) (bs : List UInt8) : starts (b :: bs) ≤ starts bs + 1 := by
  rw [starts, List.countP_cons, starts]
  split <;> omega

theorem starts_encodeChar (c : Char) : starts (String.utf8EncodeChar c) ≤ 1 := by
  have tail (n : Nat) : isTail (UInt8.ofNat (n % 64 + 0x80)) = true :=
    (isTail_ofNat (Nat.mod_lt n (by decide))).1
  have first (b : UInt8) {bs : List UInt8} (h : starts bs = 0) : starts (b :: bs) ≤ 1 := by
    have := starts_cons_le b bs
    rwa [h] at this
  unfold String.utf8EncodeChar
  simp only
  split
  · exact first _ rfl
  · split
    · exact first _ (by rw [starts_cons_of_tail (tail _)]; rfl)
    · split
      · exact first _ (by rw [starts_cons_of_tail (tail _), starts_cons_of_tail (tail _)]; rfl)
      · exact first _
          (by rw [starts_cons_of_tail (tail _), starts_cons_of_tail (tail _),
            starts_cons_of_tail (tail _)]; rfl)

theorem takeTails_suffix (n bits : Nat) (bs : List UInt8) : (takeTails n bits bs).2 <:+ bs := by
  induction n generalizing bits bs with
  | zero => exact List.suffix_refl bs
  | succ n ih =>
    cases bs with
    | nil => exact List.suffix_refl []
    | cons b bs =>
      rw [takeTails]
      split
      · exact (ih _ bs).trans (List.suffix_cons b bs)
      · exact List.suffix_refl _

theorem step_suffix (b : UInt8) (bs : List UInt8) : (step b bs).2 <:+ bs := by
  unfold step
  split
  · exact List.suffix_refl bs
  · split
    · split
      · exact (takeTails_suffix _ _ _).trans (List.suffix_cons _ _)
      · exact List.suffix_refl _
    · exact List.suffix_refl _

theorem lead?_of_isTail {b : UInt8} (h : isTail b = true) : lead? b = none := by
  simp only [isTail, Bool.and_eq_true, decide_eq_true_eq] at h
  have least := UInt8.le_iff_toNat_le.1 h.1
  have greatest := UInt8.le_iff_toNat_le.1 h.2
  simp only [lead?, UInt8.le_iff_toNat_le, UInt8.reduceToNat, Bool.and_eq_true, decide_eq_true_eq,
    beq_iff_eq, ← UInt8.toNat_inj] at least greatest ⊢
  rw [if_neg (by omega), if_neg (by omega), if_neg (by omega), if_neg (by omega), if_neg (by omega),
    if_neg (by omega), if_neg (by omega)]

/-- No character starts with a continuation byte. -/
theorem step_of_isTail {b : UInt8} (h : isTail b = true) (bs : List UInt8) :
    (step b bs).1 = none := by
  have high : ¬b < 0x80 := by
    simp only [isTail, Bool.and_eq_true, decide_eq_true_eq] at h
    rw [UInt8.lt_iff_toNat_lt]
    exact Nat.not_lt.2 (UInt8.le_iff_toNat_le.1 h.1)
  simp only [step, if_neg high, lead?_of_isTail h]

/-- A text has no more characters than start in its bytes. -/
theorem length_le_starts {bs : List UInt8} {cs : List Char} (h : decode? bs = some cs) :
    cs.length ≤ starts bs := by
  induction bs using decode?.induct generalizing cs with
  | case1 =>
    rw [decode?] at h
    obtain rfl := Option.some.inj h
    exact Nat.le_refl 0
  | case2 b bs short c rest hstep ih =>
    rw [decode?] at h
    split at h
    · rename_i d rest' hstep'
      obtain ⟨ds, hds, rfl⟩ := Option.map_eq_some_iff.1 h
      have first : isTail b = false :=
        Bool.eq_false_iff.2 fun tail => by simpa [hstep'] using step_of_isTail tail bs
      have remaining : rest' <:+ bs := by simpa [hstep'] using step_suffix b bs
      rw [hstep] at hstep'
      obtain ⟨-, rfl⟩ := Prod.mk.inj hstep'
      calc ds.length + 1 ≤ starts rest + 1 := Nat.succ_le_succ (ih hds)
        _ ≤ starts bs + 1 := Nat.succ_le_succ (remaining.sublist.countP_le)
        _ = starts (b :: bs) := (List.countP_cons_of_pos (by simp [first])).symm
    · cases h
  | case3 b bs short rest hstep =>
    rw [decode?] at h
    split at h
    · rename_i hstep'
      rw [hstep] at hstep'
      cases hstep'
    · cases h

end StoryPreview.Utf8
