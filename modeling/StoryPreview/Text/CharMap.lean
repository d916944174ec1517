import StoryPreview.Text.Blank
/-!
Maps from characters to values, kept as ranges of character numbers in increasing order, and their
compact written form: entries between blanks with numbers in hexadecimal, such as `300-314=e6
315=e8`.
-/
namespace StoryPreview

def hexDigit? (c : Char) : Option Nat :=
  if '0' ≤ c ∧ c ≤ '9' then some (c.toNat - 48)
  else if 'a' ≤ c ∧ c ≤ 'f' then some (c.toNat - 87)
  else if 'A' ≤ c ∧ c ≤ 'F' then some (c.toNat - 55)
  else none

def hexValue (cs : List Char) : Nat := cs.foldl (fun n c => 16 * n + (hexDigit? c).getD 0) 0

structure CharRange (α : Type) where
  low : Nat
  high : Nat
  value : α

structure CharMap (α : Type) where
  ranges : Array (CharRange α)

def CharRange.readEnds (word : List Char) : Nat × Nat :=
  match Text.splitFirst? '-' word with
  | some (low, high) => (hexValue low, hexValue high)
  | none => (hexValue word, hexValue word)

def CharRange.read? {α : Type} (readValue : List Char → α) (word : List Char) :
    Option (CharRange α) :=
  (Text.splitFirst? '=' word).map fun (ends, value) =>
    let (low, high) := readEnds ends
    ⟨low, high, readValue value⟩

namespace CharMap

variable {α : Type}

/-- Reads the written form of a map; entries without a value are left out. -/
def ofText (readValue : List Char → α) (s : String) : CharMap α :=
  ⟨((Text.words s.toList).filterMap (CharRange.read? readValue)).toArray⟩

/-- Halves the part `low ≤ i < high` of the ranges until the range of `n` is found. -/
def findIn (ranges : Array (CharRange α)) (n : Nat) : Nat → Nat → Nat → Option (CharRange α)
  | 0, _, _ => none
  | fuel + 1, low, high =>
    if low < high then
      let middle := (low + high) / 2
      match ranges[middle]? with
      | none => none
      | some r =>
        if n < r.low then findIn ranges n fuel low middle
        else if r.high < n then findIn ranges n fuel (middle + 1) high
        else some r
    else none

def range? (m : CharMap α) (c : Char) : Option (CharRange α) :=
  findIn m.ranges c.toNat (Nat.log2 m.ranges.size + 2) 0 m.ranges.size

def get? (m : CharMap α) (c : Char) : Option α := (m.range? c).map (·.value)

end CharMap
end StoryPreview
