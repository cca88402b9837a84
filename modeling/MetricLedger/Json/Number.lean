import MetricLedger.Number.Shortest

/-!
# Numbers in JSON text

A double is written with its shortest digits: in positional notation while the point stays within
sixteen digits or at most four zeros before them, otherwise with an exponent whose sign is always
written. What is not finite has no JSON number and is written `null`.
-/

namespace MetricLedger.Json

/-- `digits` with a point after the first `n` of them, zeros filling both sides. -/
def positional (digits : List Char) (n : Int) : List Char :=
  if n ≤ 0 then '0' :: '.' :: (List.replicate (-n).toNat '0' ++ digits)
  else if digits.length ≤ n then
    digits ++ List.replicate (n.toNat - digits.length) '0' ++ ['.', '0']
  else digits.take n.toNat ++ '.' :: digits.drop n.toNat

/-- `digits` with a point after the first one and the exponent that goes with it. -/
def scientific (digits : List Char) (exponent : Int) : List Char :=
  let mantissa := match digits with
    | d :: rest@(_ :: _) => d :: '.' :: rest
    | short => short
  let sign := if exponent < 0 then '-' else '+'
  mantissa ++ 'e' :: sign :: Text.Digits.plain exponent.natAbs

/-- The text of a finite double without its sign. -/
def magnitudeText (x : Double) : List Char :=
  let d := x.shortest
  let point : Int := d.text.length + d.exponent
  if -5 < point ∧ point ≤ 16 then positional d.text point else scientific d.text (point - 1)

/-- The text of a finite double. -/
def finiteText (x : Double) : String :=
  String.ofList ((if x.isNegative then ['-'] else []) ++ magnitudeText x)

/-- The JSON text of any double. -/
def numberText (x : Double) : String := if x.isFinite then finiteText x else "null"

end MetricLedger.Json
