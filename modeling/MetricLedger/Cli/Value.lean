import MetricLedger.Number.Decimal
import MetricLedger.Text.Integer

/-!
# Values of arguments

What an argument of the command line may hold, and why a text does not hold it.
-/

namespace MetricLedger.Cli

/-- The texts that an argument takes. -/
inductive ValueKind
  | text
  /-- A whole number up to a bound, told apart from one that is only too large for it. -/
  | bounded (most : Nat)
  /-- A whole number of 64 bits. -/
  | whole
  | decimal
deriving DecidableEq, Repr

inductive Value
  | text (s : String)
  | natural (n : Nat)
  | double (x : Double)
deriving DecidableEq, Repr

/-- Why a text is no value of a kind. -/
inductive ValueFault
  | integer (fault : Text.Integer.Fault)
  | outside (n : Int) (most : Nat)
  | decimal (fault : Number.Decimal.Fault)
deriving DecidableEq, Repr

def ValueFault.message : ValueFault → String
  | .integer fault => fault.message
  | .outside n most => s!"{n} is not in 0..={most}"
  | .decimal fault => fault.message

def ValueKind.read (kind : ValueKind) (s : String) : Except ValueFault Value :=
  match kind with
  | .text => .ok (.text s)
  | .bounded most =>
    match Text.Integer.signed 64 s.toList with
    | .error fault => .error (.integer fault)
    | .ok n => if 0 ≤ n ∧ n ≤ most then .ok (.natural n.toNat) else .error (.outside n most)
  | .whole => ((Text.Integer.natural (UInt64.size - 1) s.toList).map .natural).mapError .integer
  | .decimal => ((Number.Decimal.parse s.toList).map .double).mapError .decimal

end MetricLedger.Cli
