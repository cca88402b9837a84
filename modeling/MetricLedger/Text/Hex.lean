import MetricLedger.Number.Natural

/-!
# Hexadecimal digits

Written in lower case, read in either case.
-/

namespace MetricLedger.Text.Hex

open scoped MetricLedger.Natural

/-- The digit of a number below sixteen. -/
def digit (n : Nat) : Char := Char.ofNat (if n < 10 then 48 + n else 87 + n)

def value? (c : Char) : Option Nat :=
  let n := c.toNat
  if 48 ≤ n ∧ n ≤ 57 then some (n - 48)
  else if 97 ≤ n ∧ n ≤ 102 then some (n - 87)
  else if 65 ≤ n ∧ n ≤ 70 then some (n - 55)
  else none

def byteValue? (b : UInt8) : Option Nat := value? (Char.ofNat b.toNat)

def isDigit (c : Char) : Bool := (value? c).isSome

/-- The lowest `width` digits of a number. -/
def digits : (width : Nat) → Nat → List Char
  | 0, _ => []
  | width + 1, n => digits width (n / 16) ++ [digit (n % 16)]

/-- The digits of a number, without leading zeros. -/
def plain (n : Nat) : List Char := Nat.toDigits 16 n

/-- The number whose digits are those of `high` followed by the given ones. -/
def number? (high : Nat) : List Char → Option Nat
  | [] => some high
  | c :: cs => (value? c).bind fun d => number? (high * 16 + d) cs

theorem value?_digit {n : Nat} (h : n < 16) : value? (digit n) = some n := by
  have all : ∀ m : Fin 16, value? (digit m) = some m.val := by decide
  exact all ⟨n, h⟩

@[simp] theorem length_digits (width n : Nat) : (digits width n).length = width := by
  induction width generalizing n with
  | zero => rfl
  | succ width ih => simp [digits, ih]

theorem number?_append (high : Nat) (xs ys : List Char) :
    number? high (xs ++ ys) = (number? high xs).bind fun n => number? n ys := by
  induction xs generalizing high with
  | nil => rfl
  | cons c cs ih => cases h : value? c <;> simp [number?, h, ih]

/-- Fixed-width digits read back as the number they were written for. -/
theorem number?_digits (width n : Nat) :
    number? 0 (digits width n) = some (n % 16 ^ width) := by
  induction width generalizing n with
  | zero => simp [digits, number?, Nat.mod_one]
  | succ width ih =>
    have step : n % 16 ^ (width + 1) = n / 16 % 16 ^ width * 16 + n % 16 := by
      rw [Nat.pow_succ, Nat.mul_comm (16 ^ width) 16, Nat.mod_mul]; omega
    simp [digits, number?_append, ih, number?, value?_digit (Nat.mod_lt n (by decide : 16 > 0)),
      step]

end MetricLedger.Text.Hex
