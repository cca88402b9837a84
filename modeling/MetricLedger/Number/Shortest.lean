import MetricLedger.Number.Double
import MetricLedger.Text.Digits

/-!
# Shortest decimals

`Double.shortest` is the decimal with the fewest digits that rounds back to a given double, and
among those the one nearest to it. All comparisons are exact on natural numbers.
-/

namespace MetricLedger

open scoped MetricLedger.Natural

/-- The number `digits * 10 ^ exponent`. -/
structure Decimal where
  digits : Nat
  exponent : Int
deriving DecidableEq, Repr

/-- The decimal digits of a number, as characters. -/
def Decimal.text (d : Decimal) : List Char := Text.Digits.plain d.digits

namespace Double

/-- The open or closed interval of reals that round to a positive double, as numerators over the
common denominator `den`. -/
structure Basin where
  low : Nat
  value : Nat
  high : Nat
  den : Nat
  closed : Bool

/-- Midpoints to both neighbours, the lower one being nearer at a power of two. -/
def basin (x : Double) : Basin :=
  let m := x.significand
  let e := x.exponent
  let below := if m = 2 ^ (52 : Nat) ∧ -1074 < e then 4 * m - 1 else 4 * m - 2
  let (unit, den) := scale 1 4 e
  ⟨below * unit, 4 * m * unit, (4 * m + 2) * unit, den, m % 2 == 0⟩

def Basin.holds (b : Basin) (num den : Nat) : Bool :=
  let n := num * b.den
  if b.closed then b.low * den ≤ n && n ≤ b.high * den else b.low * den < n && n < b.high * den

/-- The place of the leading digit of a positive fraction. -/
def leadingPlace (num den : Nat) : Int :=
  if den ≤ num then ((Text.Digits.plain (num / den)).length : Int) - 1
  else -(Text.Digits.plain ((den + num - 1) / num - 1)).length

/-- The member of the grid of multiples of `10 ^ place` that is nearest to the value, if one of the
two neighbours of the value on that grid rounds to it. -/
def Basin.onGrid? (b : Basin) (place : Int) : Option Decimal :=
  let (unit, per) := if 0 ≤ place then (10 ^ place.toNat, 1) else (1, 10 ^ (-place).toNat)
  let steps := b.value * per
  let step := b.den * unit
  let down := steps / step
  let downHolds := 0 < down && b.holds (down * unit) per
  let upHolds := b.holds ((down + 1) * unit) per
  let best := roundDiv steps step
  if downHolds && upHolds then some ⟨best, place⟩
  else if downHolds then some ⟨down, place⟩
  else if upHolds then some ⟨down + 1, place⟩
  else none

/-- The grids from one place above the leading digit down to the seventeenth digit, coarsest first;
seventeen digits always suffice. -/
def Basin.grids (b : Basin) : List Int :=
  (List.range 18).map fun (n : Nat) => leadingPlace b.value b.den + 1 - (n : Int)

/-- The shortest decimal that rounds to a double, nearest first, up to its sign; zero for zero. -/
def shortest (x : Double) : Decimal :=
  if x.isZero then ⟨0, 0⟩ else (x.basin.grids.findSome? x.basin.onGrid?).getD ⟨0, 0⟩

end Double

end MetricLedger
