import StoryPreview.Number.Shortest
/-!
Spellings of a double. A `Layout` says where positional notation ends and how the exponent is
written; `plain`, `stored` and `inspected` are the three that the library writes.
-/
namespace StoryPreview

/-- How a double is written. Exponents here are those of the first digit. -/
structure Layout where
  /-- Which way an exact tie between two shortest decimals goes. -/
  tie : Tie
  /-- The least exponent that is written positionally. -/
  least : Int
  /-- The greatest exponent that is written positionally. -/
  greatest : Int
  /-- Whether a whole number in positional notation ends in `.0`. -/
  pointZero : Bool
  plus : List Char
  /-- Whether a negative zero has its sign. -/
  signedZero : Bool
  nan : List Char
  infinity : Bool → List Char

namespace Layout

/-- The spelling in page addresses and labels: positional from `1e-6` up to below `1e21`. -/
def plain : Layout :=
  { tie := .upward, least := -6, greatest := 20, pointZero := false, plus := ['+'],
    signedZero := false, nan := "NaN".toList
    infinity := fun negative => (if negative then "-Infinity" else "Infinity").toList }

/-- The spelling in JSON, which has no word for NaN and the infinities. -/
def stored : Layout :=
  { tie := .even, least := -5, greatest := 15, pointZero := true, plus := ['+'],
    signedZero := true, nan := "null".toList, infinity := fun _ => "null".toList }

def inspected : Layout :=
  { tie := .upward, least := -4, greatest := 15, pointZero := true, plus := [],
    signedZero := true, nan := "NaN".toList
    infinity := fun negative => (if negative then "-inf" else "inf").toList }

/-- Writes the digits `ds` of a decimal whose first digit stands for `10 ^ exponent`. -/
def place (l : Layout) (ds : List Char) (exponent : Int) : List Char :=
  if l.least ≤ exponent ∧ exponent ≤ l.greatest then
    if exponent < 0 then '0' :: '.' :: (List.replicate (-exponent - 1).toNat '0' ++ ds)
    else
      let whole := exponent.toNat + 1
      if ds.length ≤ whole then
        ds ++ List.replicate (whole - ds.length) '0' ++ (if l.pointZero then ['.', '0'] else [])
      else ds.take whole ++ '.' :: ds.drop whole
  else
    let sign := if exponent < 0 then ['-'] else l.plus
    let fraction := if ds.length ≤ 1 then [] else '.' :: ds.drop 1
    ds.take 1 ++ fraction ++ 'e' :: (sign ++ Nat.toDigits 10 exponent.natAbs)

def magnitude (l : Layout) (m : Magnitude) : List Char :=
  let decimal := m.shortest l.tie
  let ds := Nat.toDigits 10 decimal.digits
  l.place ds (decimal.exponent + ds.length - 1)

def write (l : Layout) : Double → List Char
  | .nan => l.nan
  | .infinity negative => l.infinity negative
  | .finite negative m =>
    if m.significand = 0 then
      (if negative && l.signedZero then ['-'] else []) ++ '0' :: (if l.pointZero then ['.', '0']
        else [])
    else (if negative then ['-'] else []) ++ l.magnitude m

end Layout

namespace Double

def spelling (x : Double) : List Char := Layout.plain.write x

def inspect (x : Double) : String := String.ofList (Layout.inspected.write x)

end Double
end StoryPreview
