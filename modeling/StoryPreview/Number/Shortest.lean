import StoryPreview.Number.Binary64
/-!
Shortest decimals. The numbers that round to a given magnitude form an interval around it; among the
decimals `digits * 10 ^ exponent` inside, the one on the coarsest power of ten is chosen, and of
several on that grid the one nearest to the magnitude.
-/
namespace StoryPreview

structure Decimal where
  digits : Nat
  exponent : Int
  deriving DecidableEq, Repr

inductive Tie where
  | upward
  | even
  deriving DecidableEq, Repr

/-- The interval of numbers that round to a magnitude. All three points are counted in quarters of a
unit; the end points belong to the interval when it is closed. -/
structure Rounding where
  low : Nat
  centre : Nat
  high : Nat
  closed : Bool
  deriving DecidableEq, Repr

/-- The next magnitude below a power of two is half as far away as the next one above. -/
def Magnitude.rounding (m : Magnitude) : Rounding :=
  let scale := Nat.pow 2 m.exponent
  let below := if m.significand = Nat.pow 2 52 ∧ 0 < m.exponent then 1 else 2
  { low := (4 * m.significand - below) * scale
    centre := 4 * m.significand * scale
    high := (4 * m.significand + 2) * scale
    closed := m.significand % 2 == 0 }

namespace Rounding

def stepSize (k : Int) : Nat × Nat :=
  (4 * Magnitude.one * Nat.pow 10 k.toNat, Nat.pow 10 (-k).toNat)

def holds (r : Rounding) (step : Nat × Nat) (n : Nat) : Bool :=
  let point := n * step.1
  if r.closed then r.low * step.2 ≤ point && point ≤ r.high * step.2
  else r.low * step.2 < point && point < r.high * step.2

/-- The multiple of `10 ^ k` in the interval that is nearest to its centre. -/
def onGrid? (r : Rounding) (tie : Tie) (k : Int) : Option Nat :=
  let step := stepSize k
  let below := r.centre * step.2 / step.1
  let rest := r.centre * step.2 % step.1
  match r.holds step below, r.holds step (below + 1) with
  | true, true =>
    let up := if 2 * rest = step.1 then tie == .upward || below % 2 == 1 else step.1 < 2 * rest
    some (if up then below + 1 else below)
  | true, false => some below
  | false, true => some (below + 1)
  | false, false => none

def search (r : Rounding) (tie : Tie) : Nat → Int → Option Decimal
  | 0, _ => none
  | n + 1, k =>
    match r.onGrid? tie k with
    | some digits => some ⟨digits, k⟩
    | none => search r tie n (k - 1)

end Rounding

def digitCount (n : Nat) : Nat := (Nat.toDigits 10 n).length

/-- An exponent `k` such that the magnitude is at most `10 ^ k`, and at least a tenth of it. -/
def Magnitude.decade (m : Magnitude) : Int :=
  if Magnitude.one ≤ m.units then digitCount (m.units / Magnitude.one)
  else 1 - (digitCount (Magnitude.one / m.units) : Int)

/-- The shortest decimal that rounds to a positive magnitude. Eighteen grids below the magnitude are
enough: the last is finer than the interval. -/
def Magnitude.shortest (m : Magnitude) (tie : Tie) : Decimal :=
  if m.significand = 0 then ⟨0, 0⟩
  else (m.rounding.search tie 20 m.decade).getD ⟨0, 0⟩

end StoryPreview
