import MetricLedger.Json.Shape
import MetricLedger.Proofs.Number.Size

/-!
# The range of numbers that are read

A number that is read is finite: what would be too large is refused, and dividing makes nothing
larger.
-/

namespace MetricLedger.Json

/-- A reader succeeds with finite numbers only. -/
def Bounded (found : Outcome Numeral) : Prop :=
  ∀ n r, found = .ok (n, r) → n.toDouble.isFinite

theorem bounded_error (f : Fault) : Bounded (.error f) := by
  intro n r h
  cases h

theorem bounded_ok {n : Numeral} (h : n.toDouble.isFinite) (r : Bytes) : Bounded (.ok (n, r)) := by
  rintro _ _ ⟨⟩
  exact h

/-! ## Arithmetic -/

/-- Digits are absorbed as far as 64 bits hold them. -/
abbrev Fits (n : ℕ) : Prop := n ≤ 2 ^ 64 - 1

theorem absorb_le {limit n : ℕ} (h : n ≤ limit) (s : Bytes) : (absorb limit n s).1 ≤ limit := by
  fun_induction absorb limit n s with
  | case1 => exact h
  | case2 n b s more ih => exact ih (by simp at more; exact more.2)
  | case3 => exact h

theorem fits_digitValue (b : UInt8) : Fits (digitValue b) := by
  have := b.toNat_lt
  unfold Fits digitValue
  omega

theorem isFinite_ofNat {n : ℕ} (h : Fits n) : (Double.ofNat n).isFinite :=
  Double.isFinite_ofNat (p := 20) (Nat.le_trans h (by decide)) (by decide)

theorem isFinite_negate {x : Double} (h : x.isFinite) : x.negate.isFinite := by
  rwa [Double.isFinite, Double.negate, Double.magnitude_ofMagnitude _ x.magnitude_lt]

theorem isFinite_signed (negative : Bool) {x : Double} (h : x.isFinite) :
    (signed negative x).isFinite := by
  cases negative
  · exact h
  · exact isFinite_negate h

theorem isFinite_div_ofNat {x : Double} (h : x.isFinite) {n : ℕ} (pos : 0 < n) :
    (x.div (.ofNat n)).isFinite :=
  Double.isFinite_div h (Double.one_le_size_ofNat pos)

theorem isFinite_shrink {x : Double} (h : x.isFinite) (places : ℕ) :
    (shrink x places).isFinite := by
  fun_induction shrink x places with
  | case1 => exact isFinite_div_ofNat h (Nat.pow_pos (by decide))
  | case2 => exact h
  | case3 x places _ _ ih => exact ih (isFinite_div_ofNat h (by positivity))

theorem isFinite_scaled {n : ℕ} (h : Fits n) {exponent : ℤ} {x : Double}
    (scaled : scaled? n exponent = some x) : x.isFinite := by
  unfold scaled? at scaled
  split at scaled
  · cases scaled
    exact isFinite_shrink (isFinite_ofNat h) _
  · split at scaled
    · cases scaled
      exact isFinite_ofNat (Nat.zero_le _)
    · split at scaled
      · cases scaled
      · dsimp only at scaled
        split at scaled
        · cases scaled
          assumption
        · cases scaled

/-! ## From the end of a number to its front -/

section
variable (negative : Bool) {n : ℕ} (h : Fits n)
include h

theorem bounded_endDouble (exponent : ℤ) (s : Bytes) :
    Bounded (endDouble negative n exponent s) := by
  unfold endDouble
  split
  · rename_i scaled
    exact bounded_ok (n := .double _) (isFinite_signed negative (isFinite_scaled h scaled)) s
  · exact bounded_error _

theorem bounded_readExponentDigits (exponent : ℤ) (up : Bool) (s : Bytes) :
    Bounded (readExponentDigits negative n exponent up s) := by
  unfold readExponentDigits
  split
  · exact bounded_error _
  · split
    · dsimp only
      split
      · split
        · exact bounded_error _
        · have zero := isFinite_signed negative (isFinite_ofNat (Nat.zero_le _))
          exact bounded_ok (n := .double _) zero _
      · exact bounded_endDouble negative h _ _
    · exact bounded_error _

theorem bounded_readExponent (exponent : ℤ) (s : Bytes) :
    Bounded (readExponent negative n exponent s) := by
  have digits := bounded_readExponentDigits negative h exponent
  unfold readExponent
  split
  · split
    · exact digits _ _
    · split <;> exact digits _ _
  · exact digits _ _

theorem bounded_readScale (exponent : ℤ) (s : Bytes) :
    Bounded (readScale negative n exponent s) := by
  unfold readScale
  split
  · split
    · exact bounded_readExponent negative h _ _
    · exact bounded_endDouble negative h _ _
  · exact bounded_endDouble negative h _ _

theorem bounded_readFraction (exponent : ℤ) (s : Bytes) :
    Bounded (readFraction negative n exponent s) := by
  unfold readFraction
  split
  · exact bounded_readScale negative (absorb_le h s) _ _
  · exact bounded_error _

theorem isFinite_wholeNumeral : (wholeNumeral negative n).toDouble.isFinite := by
  have finite := isFinite_ofNat h
  unfold wholeNumeral
  split
  · split
    · exact isFinite_negate finite
    · exact isFinite_negate finite
  · exact finite

theorem bounded_readAfterWhole (extra : ℕ) (s : Bytes) :
    Bounded (readAfterWhole negative n extra s) := by
  have whole := bounded_ok (isFinite_wholeNumeral negative h)
  have scale := bounded_readScale negative h
  unfold readAfterWhole
  split
  · split
    · exact bounded_readFraction negative h _ _
    · split
      · exact whole _
      · exact scale _ _
  · split
    · exact whole _
    · exact scale _ _

end

theorem bounded_readNumeral (negative : Bool) (s : Bytes) : Bounded (readNumeral negative s) := by
  unfold readNumeral
  split
  · exact bounded_error _
  · split
    · split
      · exact bounded_error _
      · exact bounded_readAfterWhole negative (Nat.zero_le _) _ _
    · split
      · exact bounded_readAfterWhole negative (absorb_le (fits_digitValue _) _) _ _
      · exact bounded_error _

/-- Every double that is read, alone or within a text, is finite. -/
theorem isFinite_read {s r : Bytes} {x : Double} (h : Scalar.read s = .ok (x, r)) :
    x.isFinite := by
  have bounded : Bounded (readNumber "f64" s) := by
    unfold readNumber
    split
    · exact bounded_error _
    · split
      · exact bounded_readNumeral true _
      · split
        · exact bounded_readNumeral false _
        · exact bounded_error _
  change convert (fun n => .ok n.toDouble) (readNumber "f64" s) = .ok (x, r) at h
  unfold convert at h
  split at h
  · cases h
  · rename_i n t read
    cases h
    exact bounded n _ read

theorem isFinite_of_whole {s : Bytes} {x : Double} (h : whole Scalar.read s = .ok x) :
    x.isFinite := by
  unfold whole at h
  split at h
  · cases h
  · rename_i read
    split at h
    · cases h
      exact isFinite_read read
    · cases h

end MetricLedger.Json
