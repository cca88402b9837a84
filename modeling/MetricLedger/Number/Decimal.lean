import MetricLedger.Number.Double
import MetricLedger.Text.Digits
import MetricLedger.Text.Pieces

/-!
# Decimal text of doubles

A number is written with digits before or behind a point, or both, and an optional exponent; `inf`,
`infinity` and `nan` in any case are the values that are no numbers. A sign may stand in front. The
nearest double is read, however many digits there are.
-/

namespace MetricLedger.Number.Decimal

open scoped MetricLedger.Natural

inductive Fault
  | empty
  | invalid
deriving DecidableEq, Repr

def Fault.message : Fault → String
  | .empty => "cannot parse float from empty string"
  | .invalid => "invalid float literal"

/-- A decimal number without its sign: `digits * 10 ^ exponent`. -/
structure Unsigned where
  digits : Nat
  exponent : Int
deriving DecidableEq, Repr

/-- The double nearest to a decimal number. A number past the last power of ten below infinity is
infinite, and one below half the least double is zero, whatever its digits. -/
def Unsigned.toDouble (negative : Bool) (u : Unsigned) : Double :=
  let place := (Text.Digits.plain u.digits).length + u.exponent
  if u.digits = 0 ∨ place < -330 then .ofMagnitude negative 0
  else if 310 < place then .ofMagnitude negative Double.infinity
  else if 0 ≤ u.exponent then .ofRatio negative (u.digits * 10 ^ u.exponent.toNat) 1
  else .ofRatio negative u.digits (10 ^ (-u.exponent).toNat)

/-- The exponent behind its mark, and nothing else. -/
def exponent? (cs : List Char) : Option Int :=
  let natural (ds : List Char) : Option Int :=
    if ds.isEmpty || !ds.all Text.Digits.isDigit then none
    else some (Text.Digits.number 0 ds)
  match cs with
  | '-' :: ds => (natural ds).map (- ·)
  | '+' :: ds => natural ds
  | ds => natural ds

def isMark (c : Char) : Bool := c == 'e' || c == 'E'

def unsigned? (cs : List Char) : Option Unsigned := do
  let mantissa := cs.takeWhile (!isMark ·)
  let exponent ← match cs.drop mantissa.length with
    | [] => some 0
    | _ :: ds => exponent? ds
  let (whole, fraction) := (Text.cut? '.' mantissa).getD (mantissa, [])
  let digits := whole ++ fraction
  if digits.isEmpty || !digits.all Text.Digits.isDigit then none
  else some ⟨Text.Digits.number 0 digits, exponent - fraction.length⟩

/-- The sign in front of a text, and the rest. -/
def cutSign : List Char → Bool × List Char
  | '-' :: cs => (true, cs)
  | '+' :: cs => (false, cs)
  | cs => (false, cs)

def nan : Double := ⟨0x7FF8000000000000⟩

def parse (cs : List Char) : Except Fault Double :=
  if cs.isEmpty then .error .empty
  else
    let (negative, rest) := cutSign cs
    match String.ofList (rest.map Char.toLower) with
    | "inf" | "infinity" => .ok (.ofMagnitude negative Double.infinity)
    | "nan" => .ok nan
    | _ =>
      match unsigned? rest with
      | some u => .ok (u.toDouble negative)
      | none => .error .invalid

end MetricLedger.Number.Decimal
