/-!
UTF-8: characters as bytes, and bytes as characters in two ways. `decode?` refuses invalid bytes;
`decodeLossy` writes U+FFFD for each maximal piece of a character that breaks off.
-/
namespace StoryPreview.Utf8

def encode (cs : List Char) : List UInt8 := cs.flatMap String.utf8EncodeChar

def isTail (b : UInt8) : Bool := 0x80 ≤ b && b ≤ 0xBF

def tailBits (b : UInt8) : Nat := b.toNat % 64

/-- What a lead byte promises: the number of bytes that follow, the bounds of the first of them,
and the bits the lead byte itself contributes. -/
structure Lead where
  tails : Nat
  least : UInt8
  greatest : UInt8
  bits : Nat

/-- The lead bytes of characters of two or more bytes. The bounds leave out overlong forms,
surrogates and numbers above U+10FFFF. -/
def lead? (b : UInt8) : Option Lead :=
  if 0xC2 ≤ b && b ≤ 0xDF then some ⟨1, 0x80, 0xBF, b.toNat % 32⟩
  else if b == 0xE0 then some ⟨2, 0xA0, 0xBF, 0⟩
  else if b == 0xED then some ⟨2, 0x80, 0x9F, 13⟩
  else if 0xE1 ≤ b && b ≤ 0xEF then some ⟨2, 0x80, 0xBF, b.toNat % 16⟩
  else if b == 0xF0 then some ⟨3, 0x90, 0xBF, 0⟩
  else if 0xF1 ≤ b && b ≤ 0xF3 then some ⟨3, 0x80, 0xBF, b.toNat % 8⟩
  else if b == 0xF4 then some ⟨3, 0x80, 0x8F, 4⟩
  else none

def takeTails : Nat → Nat → List UInt8 → Option Nat × List UInt8
  | 0, bits, bs => (some bits, bs)
  | _ + 1, _, [] => (none, [])
  | n + 1, bits, b :: bs =>
    if isTail b then takeTails n (bits * 64 + tailBits b) bs else (none, b :: bs)

/-- One character, or `none` for a piece that is not one, and the bytes after it. -/
def step (b : UInt8) (bs : List UInt8) : Option Char × List UInt8 :=
  if b < 0x80 then (some (Char.ofNat b.toNat), bs)
  else match lead? b, bs with
    | some lead, t :: ts =>
      if lead.least ≤ t && t ≤ lead.greatest then
        let (bits, rest) := takeTails (lead.tails - 1) (lead.bits * 64 + tailBits t) ts
        (bits.map Char.ofNat, rest)
      else (none, bs)
    | _, _ => (none, bs)

theorem length_takeTails (n bits : Nat) (bs : List UInt8) :
    (takeTails n bits bs).2.length ≤ bs.length := by
  induction n generalizing bits bs with
  | zero => simp [takeTails]
  | succ n ih =>
    cases bs with
    | nil => simp [takeTails]
    | cons b bs =>
      simp only [takeTails]
      split
      · exact Nat.le_succ_of_le (ih _ bs)
      · simp

theorem length_step (b : UInt8) (bs : List UInt8) : (step b bs).2.length ≤ bs.length := by
  unfold step
  split
  · simp
  · split
    · split
      · exact Nat.le_succ_of_le (length_takeTails _ _ _)
      · simp
    · simp

def decode? : List UInt8 → Option (List Char)
  | [] => some []
  | b :: bs =>
    have := length_step b bs
    match _h : step b bs with
    | (some c, rest) => (decode? rest).map (c :: ·)
    | (none, _) => none
termination_by bs => bs.length
decreasing_by simp [_h] at this; simp; omega

/-- The text of any bytes, with U+FFFD for each piece that is not a character. -/
def decodeLossy : List UInt8 → List Char
  | [] => []
  | b :: bs =>
    have := length_step b bs
    (step b bs).1.getD '\uFFFD' :: decodeLossy (step b bs).2
termination_by bs => bs.length

end StoryPreview.Utf8
