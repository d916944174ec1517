import StoryPreview.Text.ComposedChars
import StoryPreview.Text.Marks
/-!
Composed text: marks stand in the order of their classes, and a letter with a mark is one character
wherever there is one for both. Texts that differ only in how their letters are put together have
one composed form. Characters that always fall apart into others are left as they are.
-/
namespace StoryPreview.Text

/-- The parts of a syllable of three letters are the syllable of two and the third; those of a
syllable of two are a consonant and a vowel. There are 21 vowels, and 27 letters that can come
third. -/
def syllableParts? (c : Char) : Option (Char × Char) :=
  if 0xAC00 ≤ c.toNat ∧ c.toNat ≤ 0xD7A3 then
    let k := c.toNat - 0xAC00
    if k % 28 = 0 then some (Char.ofNat (0x1100 + k / 588), Char.ofNat (0x1161 + k % 588 / 28))
    else some (Char.ofNat (c.toNat - k % 28), Char.ofNat (0x11A7 + k % 28))
  else none

def syllable? (a b : Char) : Option Char :=
  if 0x1100 ≤ a.toNat ∧ a.toNat ≤ 0x1112 ∧ 0x1161 ≤ b.toNat ∧ b.toNat ≤ 0x1175 then
    some (Char.ofNat (0xAC00 + ((a.toNat - 0x1100) * 21 + (b.toNat - 0x1161)) * 28))
  else if 0xAC00 ≤ a.toNat ∧ a.toNat ≤ 0xD7A3 ∧ (a.toNat - 0xAC00) % 28 = 0 ∧
      0x11A8 ≤ b.toNat ∧ b.toNat ≤ 0x11C2 then
    some (Char.ofNat (a.toNat + (b.toNat - 0x11A7)))
  else none

def parts? (c : Char) : Option (Char × Char) := (syllableParts? c).or (composedChars.get? c)

/-- The composed character of two parts. No character below U+0300 is a second part. -/
def whole? (a b : Char) : Option Char :=
  if b.toNat < 0x300 then none
  else
    (syllable? a b).or
      ((composedChars.ranges.find? (·.value == (a, b))).map fun r => Char.ofNat r.low)

/-- The characters that a character is made of. A first part can be composed itself; the number
bounds how often. -/
def decompose : Nat → Char → List Char
  | 0, c => [c]
  | fuel + 1, c =>
    match parts? c with
    | some (a, b) => decompose fuel a ++ [b]
    | none => [c]

/-- Puts a character in front of a text, but behind the marks of smaller classes there. -/
def place (c : Char) : List Char → List Char
  | [] => [c]
  | d :: cs =>
    if 0 < combiningClass d ∧ combiningClass d < combiningClass c then d :: place c cs
      else c :: d :: cs

def sortMarks (cs : List Char) : List Char := cs.foldr place []

/-- Joins a letter with what follows it. The marks that stay apart are given last one first; a mark
reaches the letter past marks of smaller classes only. -/
def joinMarks (letter : Char) (apart : List Char) : List Char → List Char
  | [] => letter :: apart.reverse
  | c :: cs =>
    let reaches := apart.head?.all fun d => combiningClass d < combiningClass c
    match if reaches then whole? letter c else none with
    | some whole => joinMarks whole apart cs
    | none =>
      if combiningClass c = 0 then letter :: (apart.reverse ++ joinMarks c [] cs)
      else joinMarks letter (c :: apart) cs

def joinAll : List Char → List Char
  | [] => []
  | c :: cs => if combiningClass c = 0 then joinMarks c [] cs else c :: joinAll cs

def compose (cs : List Char) : List Char := joinAll (sortMarks (cs.flatMap (decompose 3)))

end StoryPreview.Text
