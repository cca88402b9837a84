import MetricLedger.Proofs.Json.Range
import MetricLedger.Proofs.Json.Recognition
import MetricLedger.Proofs.Json.Skip

/-!
# Numbers that are refused

Passing over a number and reading it stop at the same place. Where only one of them refuses, it is
the reading, and the number is too large. So a number of the grammar is read as a finite double or
refused for its size, however many digits it has.
-/

namespace MetricLedger.Json

/-- Reading stops where passing over does, and refuses no more than that does, unless a number is
too large. -/
def Agrees (found : Outcome Numeral) (skipped : Except Fault Bytes) : Prop :=
  match found with
  | .ok (_, r) => skipped = .ok r
  | .error f => f.cause = .numberTooLarge ∨ ∃ g, skipped = .error g

theorem agrees_error (f g : Fault) : Agrees (.error f) (.error g) := .inr ⟨g, rfl⟩

theorem dropDigits_absorb (limit n : Nat) (s : Bytes) :
    (absorb limit n s).2.dropWhile isDigit = s.dropWhile isDigit := by
  obtain ⟨d, all, digits⟩ := absorb_spec limit n s
  conv_rhs => rw [all, List.dropWhile_append_of_pos digits]

/-! ## From the end of a number to its front -/

section
variable (negative : Bool) (n : Nat) (exponent : Int)

theorem agrees_endDouble (s : Bytes) : Agrees (endDouble negative n exponent s) (.ok s) := by
  unfold endDouble
  split
  · rfl
  · exact .inl rfl

theorem agrees_readExponentDigits (up : Bool) (s : Bytes) :
    Agrees (readExponentDigits negative n exponent up s)
      (if startsDigit s then .ok (s.dropWhile isDigit) else .error ⟨.badNumber, s.tail⟩) := by
  cases s with
  | nil => exact agrees_error _ _
  | cons b s =>
    rw [readExponentDigits, startsDigit_cons]
    split
    · rename_i digit
      have rest := dropDigits_absorb 2147483647 (digitValue b) s
      rw [List.dropWhile_cons_of_pos digit, ← rest]
      dsimp only
      split
      · split
        · exact .inl rfl
        · rfl
      · rename_i stop
        have none := @dropDigits_append [] _ (by simp) (Bool.not_eq_true _ ▸ stop)
        rw [List.nil_append] at none
        rw [none]
        exact agrees_endDouble ..
    · exact agrees_error _ _

theorem agrees_readExponent (s : Bytes) :
    Agrees (readExponent negative n exponent s) (skipExponent s) := by
  have digits := agrees_readExponentDigits negative n exponent
  cases s with
  | nil => exact digits true []
  | cons b s =>
    rw [readExponent, skipExponent]
    by_cases plus : b = ascii '+'
    · have rest : afterSign (b :: s) = s := if_pos (Or.inl plus)
      rw [if_pos plus, rest]
      exact digits true s
    · by_cases minus : b = ascii '-'
      · have rest : afterSign (b :: s) = s := if_pos (Or.inr minus)
        rw [if_neg plus, if_pos minus, rest]
        exact digits false s
      · have rest : afterSign (b :: s) = b :: s := if_neg (not_or.mpr ⟨plus, minus⟩)
        rw [if_neg plus, if_neg minus, rest]
        exact digits true (b :: s)

theorem agrees_readScale (s : Bytes) :
    Agrees (readScale negative n exponent s) (skipScale s) := by
  cases s with
  | nil => exact agrees_endDouble ..
  | cons b s =>
    rw [readScale, skipScale]
    split
    · exact agrees_readExponent ..
    · exact agrees_endDouble ..

theorem agrees_readFraction (s : Bytes) :
    Agrees (readFraction negative n exponent s)
      (if startsDigit s then skipScale (s.dropWhile isDigit) else .error ⟨.badNumber, s.tail⟩) := by
  unfold readFraction
  split
  · rw [← dropDigits_absorb (2 ^ 64 - 1) n s]
    exact agrees_readScale ..
  · exact agrees_error _ _

theorem agrees_readAfterWhole (extra : Nat) (s : Bytes) :
    Agrees (readAfterWhole negative n extra s) (skipAfterWhole s) := by
  cases s with
  | nil =>
    rw [readAfterWhole]
    split
    · rfl
    · exact agrees_readScale negative n extra []
  | cons b s =>
    rw [readAfterWhole, skipAfterWhole]
    split
    · exact agrees_readFraction ..
    · split
      · rename_i plain
        rw [skipScale, if_neg (not_or.mpr plain.2)]
        rfl
      · exact agrees_readScale ..

end

theorem agrees_readNumeral (negative : Bool) (s : Bytes) :
    Agrees (readNumeral negative s) (skipNumber s) := by
  cases s with
  | nil => exact agrees_error _ _
  | cons b s =>
    rw [readNumeral, skipNumber]
    split
    · split
      · exact agrees_error _ _
      · exact agrees_readAfterWhole ..
    · split
      · rw [← dropDigits_absorb (2 ^ 64 - 1) (digitValue b) s]
        exact agrees_readAfterWhole ..
      · exact agrees_error _ _

/-! ## Numbers of the grammar -/

theorem readNumeral_parts (negative : Bool) {w f x : Bytes} (h : Whole w) (g : Fraction f)
    (k : Exponent x) : (∃ n, readNumeral negative (w ++ (f ++ x)) = .ok (n, [])) ∨
      ∃ fault, readNumeral negative (w ++ (f ++ x)) = .error fault ∧
        fault.cause = .numberTooLarge := by
  have agrees := agrees_readNumeral negative (w ++ (f ++ x))
  have passed := skipNumber_parts ends_nil h g k
  rw [List.append_nil] at passed
  unfold Agrees at agrees
  grind

theorem readNumber_alone {literal : Bytes} (h : Literal literal) :
    (∃ n, readNumber "f64" literal = .ok (n, [])) ∨
      ∃ fault, readNumber "f64" literal = .error fault ∧ fault.cause = .numberTooLarge := by
  have signed := readNumber_literal h "f64" (.none (s := literal ++ []))
  rw [List.append_nil] at signed
  rw [signed]
  cases h with
  | positive whole f e =>
    have parts := readNumeral_parts false whole f e
    obtain ⟨b, s, rfl, digit⟩ := whole.cons
    rw [List.cons_append, readSigned, if_neg (digit_ne digit).2.2.2.1]
    exact parts
  | negative whole f e => exact readNumeral_parts true whole f e

/-- A number of the grammar is read as a finite double, unless it is too large. -/
theorem whole_literal {literal : Bytes} (h : Literal literal) :
    (∃ x : Double, whole Scalar.read literal = .ok x ∧ x.isFinite) ∨
      ∃ located, whole (Scalar.read (α := Double)) literal = .error located ∧
        located.cause = .numberTooLarge := by
  rcases readNumber_alone h with ⟨n, read⟩ | ⟨fault, read, large⟩
  · have number : whole Scalar.read literal = .ok n.toDouble := by
      unfold whole
      have converted : Scalar.read literal = .ok (n.toDouble, []) := by
        change convert (fun n => .ok n.toDouble) (readNumber "f64" literal) = _
        rw [read]
        rfl
      rw [converted]
      rfl
    exact .inl ⟨_, number, isFinite_of_whole number⟩
  · refine .inr ⟨fault.locate literal, ?_, large⟩
    have refused : Scalar.read (α := Double) literal = .error fault := by
      change convert (fun n => .ok n.toDouble) (readNumber "f64" literal) = _
      rw [read]
      rfl
    unfold whole
    rw [refused]

end MetricLedger.Json
