import StoryPreview.Number.Spelling
/-!
Decimal literals: an optional sign, digits with an optional point, and an optional exponent. `scan`
takes the longest literal at the start of a text; `Double.read?` reads a text that is a literal as a
whole, or one of the words for infinity and NaN, as the nearest double.
-/
namespace StoryPreview

/-- The number nearest to `± digits * 10 ^ exponent`. Where the exponent alone decides, no power is
computed: from `1e310` on the number is infinite, and below `1e-400` it is zero. -/
def Double.ofDecimal (negative : Bool) (digits : Nat) (exponent : Int) : Double :=
  if digits = 0 then .finite negative .zero
  else if 310 ≤ exponent then .infinity negative
  else if exponent + digitCount digits < -400 then .finite negative .zero
  else .ofQuotient negative (digits * Nat.pow 10 exponent.toNat) (Nat.pow 10 (-exponent).toNat)

def isDigit (c : Char) : Bool := '0' ≤ c && c ≤ '9'

def digitsValue (ds : List Char) : Nat := ds.foldl (fun n d => 10 * n + (d.toNat - 48)) 0

structure Literal where
  negative : Bool
  whole : List Char
  fraction : List Char
  exponent : Int
  deriving DecidableEq, Repr

namespace Literal

def value (l : Literal) : Double :=
  .ofDecimal l.negative (digitsValue (l.whole ++ l.fraction)) (l.exponent - l.fraction.length)

def scanSign : List Char → Bool × List Char
  | '-' :: cs => (true, cs)
  | '+' :: cs => (false, cs)
  | cs => (false, cs)

def scanFraction : List Char → List Char × List Char
  | '.' :: cs => (cs.takeWhile isDigit, cs.dropWhile isDigit)
  | cs => ([], cs)

/-- The exponent at the start; zero, and nothing taken, when there is no complete exponent. -/
def scanExponent (cs : List Char) : Int × List Char :=
  match cs with
  | [] => (0, [])
  | c :: rest =>
    if c == 'e' || c == 'E' then
      let (negative, rest) := scanSign rest
      match rest.takeWhile isDigit with
      | [] => (0, cs)
      | ds => (if negative then -(digitsValue ds : Int) else digitsValue ds, rest.dropWhile isDigit)
    else (0, cs)

def scan (cs : List Char) : Option (Literal × List Char) :=
  let (negative, cs) := scanSign cs
  let whole := cs.takeWhile isDigit
  let (fraction, rest) := scanFraction (cs.dropWhile isDigit)
  if whole = [] ∧ fraction = [] then none
  else
    let (exponent, rest) := scanExponent rest
    some (⟨negative, whole, fraction, exponent⟩, rest)

def read? (cs : List Char) : Option Literal :=
  match scan cs with
  | some (l, []) => some l
  | _ => none

end Literal

def lowerAscii (cs : List Char) : List Char := cs.map Char.toLower

namespace Double

def readWord? (cs : List Char) : Option Double :=
  let (negative, word) := Literal.scanSign cs
  let word := lowerAscii word
  if word = "inf".toList ∨ word = "infinity".toList then some (.infinity negative)
  else if word = "nan".toList then some .nan
  else none

def read? (cs : List Char) : Option Double :=
  match Literal.read? cs with
  | some l => some l.value
  | none => readWord? cs

/-- The finite double of which the text, trimmed by the caller, is the plain spelling. -/
def ofSpelling? (cs : List Char) : Option Double :=
  match read? cs with
  | some x => if x.isFinite ∧ x.spelling = cs then some x else none
  | none => none

end Double
end StoryPreview
