import MetricLedger.Text.Digits

/-!
# Whole numbers in text

A whole number is a run of digits behind an optional sign. It is read from the left, and reading
stops at the first thing that is wrong: a character that is no digit, or a digit that takes the
number out of its range.
-/

namespace MetricLedger.Text.Integer

open scoped MetricLedger.Natural

inductive Fault
  | empty
  | badDigit
  | tooLarge
  | tooSmall
deriving DecidableEq, Repr

def Fault.message : Fault → String
  | .empty => "cannot parse integer from empty string"
  | .badDigit => "invalid digit found in string"
  | .tooLarge => "number too large to fit in target type"
  | .tooSmall => "number too small to fit in target type"

/-- The digits that follow those of `high`, the number they make staying at most `most`. -/
def digits (most : Nat) (excess : Fault) (high : Nat) : List Char → Except Fault Nat
  | [] => .ok high
  | c :: cs =>
    if Digits.isDigit c then
      let n := high * 10 + Digits.value c
      if most < n then .error excess else digits most excess n cs
    else .error .badDigit

/-- Digits that have to be there. -/
def magnitude (most : Nat) (excess : Fault) : List Char → Except Fault Nat
  | [] => .error .badDigit
  | cs => digits most excess 0 cs

/-- A number from zero to `most`. -/
def natural (most : Nat) : List Char → Except Fault Nat
  | [] => .error .empty
  | '+' :: cs => magnitude most .tooLarge cs
  | cs => magnitude most .tooLarge cs

/-- A number of `bits` bits, one of them for the sign. -/
def signed (bits : Nat) : List Char → Except Fault Int
  | [] => .error .empty
  | '-' :: cs => (magnitude (2 ^ (bits - 1)) .tooSmall cs).map fun n => -(n : Int)
  | '+' :: cs => (magnitude (2 ^ (bits - 1) - 1) .tooLarge cs).map Int.ofNat
  | cs => (magnitude (2 ^ (bits - 1) - 1) .tooLarge cs).map Int.ofNat

end MetricLedger.Text.Integer
