import MetricLedger.Number.Natural

/-!
# Double-precision numbers

A double is its 64 bits. Arithmetic is exact on natural numbers and rounded once, to the nearest
double with ties to the even one, so every result is determined by `ofRatio`.
-/

namespace MetricLedger

open scoped MetricLedger.Natural

/-- A binary64 value, kept as its bits, the sign topmost. -/
structure Double where
  bits : UInt64
deriving DecidableEq, Repr, Inhabited

namespace Double

def isNegative (x : Double) : Bool := 2 ^ (63 : Nat) ≤ x.bits.toNat

/-- Everything but the sign. -/
def magnitude (x : Double) : Nat := x.bits.toNat % 2 ^ (63 : Nat)

/-- The magnitude of the infinities; larger ones are not numbers. -/
def infinity : Nat := 2047 * 2 ^ (52 : Nat)

def isFinite (x : Double) : Bool := x.magnitude < infinity

def isNaN (x : Double) : Bool := infinity < x.magnitude

def isZero (x : Double) : Bool := x.magnitude == 0

def ofMagnitude (negative : Bool) (n : Nat) : Double :=
  ⟨((if negative then 2 ^ (63 : Nat) else 0) + n).toUInt64⟩

/-- A finite double is `significand x * 2 ^ exponent x` up to its sign. -/
def significand (x : Double) : Nat :=
  if x.magnitude < 2 ^ (52 : Nat) then x.magnitude
  else 2 ^ (52 : Nat) + x.magnitude % 2 ^ (52 : Nat)

def exponent (x : Double) : Int := max 1 (x.magnitude / 2 ^ (52 : Nat) : Nat) - 1075

def negate (x : Double) : Double := ofMagnitude (!x.isNegative) x.magnitude

/-- The quotient rounded to the nearest natural number, a half to the even one. -/
def roundDiv (num den : Nat) : Nat :=
  let q := num / den
  let r := num % den
  if den < 2 * r || (2 * r == den && q % 2 == 1) then q + 1 else q

/-- `num / den` scaled by a power of two, as a fraction. -/
def scale (num den : Nat) (e : Int) : Nat × Nat :=
  if 0 ≤ e then (num * 2 ^ e.toNat, den) else (num, den * 2 ^ (-e).toNat)

/-- The exponent of the last place of the double nearest to a positive fraction. -/
def lastPlace (num den : Nat) : Int :=
  let e : Int := num.log2 - den.log2 - 53
  let (n, d) := scale num den (-e)
  max (-1074) (if n < 2 ^ (53 : Nat) * d then e else e + 1)

/-- The magnitude of the double nearest to `num / den`, a tie going to the even one. -/
def roundRatio (num den : Nat) : Nat :=
  if num = 0 then 0
  else
    let e := lastPlace num den
    if 971 < e then infinity
    else
      let (n, d) := scale num den (-e)
      (e + 1074).toNat * 2 ^ (52 : Nat) + roundDiv n d

/-- The double nearest to a fraction; what is too large becomes infinite. -/
def ofRatio (negative : Bool) (num den : Nat) : Double := ofMagnitude negative (roundRatio num den)

def ofNat (n : Nat) : Double := ofRatio false n 1

/-- The absolute value of a finite double as a fraction. -/
def toRatio (x : Double) : Nat × Nat := scale x.significand 1 x.exponent

def signed (negative : Bool) (n : Nat) : Int := if negative then -(n : Int) else n

/-- The sum of two finite doubles, rounded once. Only two negative zeros make a negative zero. -/
def add (x y : Double) : Double :=
  let (a, b) := x.toRatio
  let (c, d) := y.toRatio
  let n := signed x.isNegative (a * d) + signed y.isNegative (c * b)
  if n = 0 then ofMagnitude (x.isNegative && y.isNegative) 0
  else ofRatio (n < 0) n.natAbs (b * d)

/-- The product of two finite doubles, rounded once. -/
def mul (x y : Double) : Double :=
  ofRatio (x.isNegative != y.isNegative) (x.toRatio.1 * y.toRatio.1) (x.toRatio.2 * y.toRatio.2)

/-- The quotient of two finite doubles, the second not zero, rounded once. -/
def div (x y : Double) : Double :=
  ofRatio (x.isNegative != y.isNegative) (x.toRatio.1 * y.toRatio.2) (x.toRatio.2 * y.toRatio.1)

/-- Equality of numbers: the two zeros are equal and a NaN equals nothing. -/
def equals (x y : Double) : Bool :=
  !x.isNaN && !y.isNaN && (x.bits == y.bits || (x.isZero && y.isZero))

/-- Whether a double is a number that is not below zero. -/
def isNonnegative (x : Double) : Bool := !x.isNaN && (!x.isNegative || x.isZero)

/-- Whether a finite double is at most a natural number. -/
def atMost (x : Double) (n : Nat) : Bool :=
  x.isFinite && (x.isNegative || x.toRatio.1 ≤ n * x.toRatio.2)

end Double

end MetricLedger
