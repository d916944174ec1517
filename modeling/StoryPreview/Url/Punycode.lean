import StoryPreview.Number.Literal
/-!
Encoded labels: ASCII characters first, then a hyphen, then the other characters as numbers of
variable length that say how far each lies from the one before, in the order of characters and
places.
-/
namespace StoryPreview.Url.Punycode

def digitValue? (c : Char) : Option Nat :=
  if 'a' ≤ c ∧ c ≤ 'z' then some (c.toNat - 97)
  else if isDigit c then some (c.toNat - 48 + 26)
  else none

/-- From which value on a digit is not the last of its number. -/
def threshold (place bias : Nat) : Nat := min 26 (max 1 (place - bias))

def maxDistance : Nat := 0xFFFFFFFF

def readNumber? (bias : Nat) : Nat → Nat → List Char → Option (Nat × List Char)
  | _, _, [] => none
  | place, weight, c :: cs =>
    (digitValue? c).bind fun d =>
      let t := threshold place bias
      if d < t then some (d * weight, cs)
      else if maxDistance < weight * (36 - t) then none
      else (readNumber? bias (place + 36) (weight * (36 - t)) cs).map fun (n, rest) =>
        (d * weight + n, rest)

/-- Halves a distance until it is small; counts 36 for each time. The number bounds the times. -/
def settle : Nat → Nat → Nat → Nat
  | 0, distance, k => k + 36 * distance / (distance + 38)
  | fuel + 1, distance, k =>
    if 455 < distance then settle fuel (distance / 35) (k + 36)
    else k + 36 * distance / (distance + 38)

/-- The bias after a distance, when so many characters have been read. -/
def adapt (distance count : Nat) (first : Bool) : Nat :=
  let distance := if first then distance / 700 else distance / 2
  let distance := distance + distance / count
  settle distance distance 0

def char? (n : Nat) : Option Char :=
  if n < 0xD800 ∨ (0xDFFF < n ∧ n < 0x110000) then some (Char.ofNat n) else none

def insertChars? : Nat → Nat → Nat → Nat → List Char → List Char → Option (List Char)
  | _, _, _, _, out, [] => some out
  | 0, _, _, _, _, _ => none
  | fuel + 1, least, place, bias, out, code =>
    (readNumber? bias 36 1 code).bind fun (distance, rest) =>
      let count := out.length + 1
      let least := least + (place + distance) / count
      let spot := (place + distance) % count
      if maxDistance < place + distance then none
      else (char? least).bind fun c =>
        insertChars? fuel least (spot + 1) (adapt distance count (place == 0))
          (out.insertIdx spot c) rest

def decode? (code : List Char) : Option (List Char) :=
  let tail := (code.reverse.takeWhile (· ≠ '-')).reverse
  let ascii := (code.take (code.length - tail.length)).dropLast
  let tail := if ascii = [] then code else tail
  if ascii.all (·.toNat < 128) then insertChars? tail.length 128 0 72 ascii tail else none

end StoryPreview.Url.Punycode
