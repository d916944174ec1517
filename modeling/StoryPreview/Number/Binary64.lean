/-!
Binary64 numbers with exact arithmetic. A finite magnitude is a whole number of units, where a unit
is `2 ^ -1074`; rounding takes a quotient of natural numbers to the nearest magnitude, a tie to the
even significand. There is one NaN.
-/
namespace StoryPreview

/-- A finite magnitude: `significand * 2 ^ exponent` units. Each magnitude has one
representation. -/
structure Magnitude where
  significand : Nat
  exponent : Nat
  significand_lt : significand < Nat.pow 2 53
  normal : exponent = 0 ∨ Nat.pow 2 52 ≤ significand
  exponent_le : exponent ≤ 2045
  deriving DecidableEq

inductive Double where
  | nan
  | infinity (negative : Bool)
  | finite (negative : Bool) (magnitude : Magnitude)
  deriving DecidableEq

/-- The quotient `n / d` rounded to the nearest natural number, a tie to the even one. -/
def roundHalfEven (n d : Nat) : Nat :=
  let q := n / d
  let r := n % d
  if 2 * r < d then q else if d < 2 * r then q + 1 else if q % 2 = 0 then q else q + 1

namespace Magnitude

def zero : Magnitude := ⟨0, 0, by decide, .inl rfl, by decide⟩

instance : Inhabited Magnitude := ⟨zero⟩

/-- The magnitude in units of `2 ^ -1074`. -/
def units (m : Magnitude) : Nat := m.significand * Nat.pow 2 m.exponent

def one : Nat := Nat.pow 2 1074

def ofParts? (significand exponent : Nat) : Option Magnitude :=
  if h : significand < Nat.pow 2 53 ∧ (exponent = 0 ∨ Nat.pow 2 52 ≤ significand) ∧
    exponent ≤ 2045 then
    some ⟨significand, exponent, h.1, h.2.1, h.2.2⟩
  else none

/-- The magnitude nearest to `n / d` units; none when that lies past the greatest magnitude. -/
def nearest? (n d : Nat) : Option Magnitude :=
  let exponent := Nat.log2 (n / d) - 52
  let significand := roundHalfEven n (d * Nat.pow 2 exponent)
  if significand < Nat.pow 2 53 then ofParts? significand exponent
  else ofParts? (Nat.pow 2 52) (exponent + 1)

theorem ofParts?_parts (m : Magnitude) : ofParts? m.significand m.exponent = some m := by
  exact dif_pos ⟨m.significand_lt, m.normal, m.exponent_le⟩

end Magnitude

namespace Double

def zero : Double := .finite false .zero

instance : Inhabited Double := ⟨zero⟩

def ofMagnitude (negative : Bool) : Option Magnitude → Double
  | some m => .finite negative m
  | none => .infinity negative

/-- The number nearest to `± n / d`; past the greatest magnitude it is infinite. -/
def ofQuotient (negative : Bool) (n d : Nat) : Double :=
  ofMagnitude negative (Magnitude.nearest? (n * Magnitude.one) d)

def ofNat (n : Nat) : Double := ofQuotient false n 1

def ofInt (n : Int) : Double := ofQuotient (n < 0) n.natAbs 1

def isNegative : Double → Bool
  | .nan => false
  | .infinity negative | .finite negative _ => negative

def isFinite : Double → Bool
  | .finite .. => true
  | _ => false

def isZero : Double → Bool
  | .finite _ m => m.significand == 0
  | _ => false

def neg : Double → Double
  | .nan => .nan
  | .infinity negative => .infinity (!negative)
  | .finite negative m => .finite (!negative) m

/-- Numeric equality: NaN equals nothing, and the two zeros are equal. -/
def same : Double → Double → Bool
  | .infinity a, .infinity b => a == b
  | .finite a m, .finite b n => m == n && (a == b || m.significand == 0)
  | _, _ => false

def units? : Double → Option Int
  | .finite negative m => some (if negative then -(m.units : Int) else m.units)
  | _ => none

/-- Numeric order; NaN is not below or above anything. -/
def lt : Double → Double → Bool
  | .nan, _ | _, .nan => false
  | .infinity a, .infinity b => a && !b
  | .infinity a, .finite .. => a
  | .finite .., .infinity b => !b
  | .finite a m, .finite b n =>
    let signed (negative : Bool) (m : Magnitude) : Int :=
      if negative then -(m.units : Int) else m.units
    signed a m < signed b n

/-- The rounded sum. A sum of zero is negative only if both terms are. -/
def add : Double → Double → Double
  | .nan, _ | _, .nan => .nan
  | .infinity a, .infinity b => if a == b then .infinity a else .nan
  | .infinity a, .finite .. => .infinity a
  | .finite .., .infinity b => .infinity b
  | .finite a m, .finite b n =>
    let signed (negative : Bool) (m : Magnitude) : Int :=
      if negative then -(m.units : Int) else m.units
    let sum := signed a m + signed b n
    let negative := if sum = 0 then a && b else sum < 0
    ofMagnitude negative (Magnitude.nearest? sum.natAbs 1)

/-- The rounded product with a power of ten, `10 ^ k`, itself rounded to binary64 first. -/
def mulTenPow (x : Double) (k : Nat) : Double :=
  match x, ofNat (Nat.pow 10 k) with
  | .finite negative m, .finite _ p =>
    ofMagnitude negative (Magnitude.nearest? (m.units * p.units) Magnitude.one)
  | x, _ => x

def divTenPow (x : Double) (k : Nat) : Double :=
  match x, ofNat (Nat.pow 10 k) with
  | .finite negative m, .finite _ p =>
    ofMagnitude negative (Magnitude.nearest? (m.units * Magnitude.one) p.units)
  | x, _ => x

/-- The number with the given 64 bits: sign, eleven exponent bits, 52 fraction bits. -/
def ofBits (bits : Nat) : Double :=
  let negative := bits / Nat.pow 2 63 % 2 == 1
  let exponent := bits / Nat.pow 2 52 % Nat.pow 2 11
  let fraction := bits % Nat.pow 2 52
  if exponent = 2047 then (if fraction = 0 then .infinity negative else .nan)
  else
    let parts := if exponent = 0 then (fraction, 0) else (Nat.pow 2 52 + fraction, exponent - 1)
    match Magnitude.ofParts? parts.1 parts.2 with
    | some m => .finite negative m
    | none => .nan

def toBits : Double → Nat
  | .nan => 0x7FF8000000000000
  | .infinity negative => (if negative then Nat.pow 2 63 else 0) + 2047 * Nat.pow 2 52
  | .finite negative m =>
    (if negative then Nat.pow 2 63 else 0) +
      if m.significand < Nat.pow 2 52 then m.significand
      else (m.exponent + 1) * Nat.pow 2 52 + (m.significand - Nat.pow 2 52)

end Double
end StoryPreview
