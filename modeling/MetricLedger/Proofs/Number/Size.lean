import MetricLedger.Proofs.Number.Rounding

/-!
# Doubles as rational numbers

The size of a double is the rational number that it stands for, its sign left aside. Arithmetic is
exact on sizes and then rounds; what can be written with 53 bits is not changed by rounding.
-/

namespace MetricLedger.Double

/-- The absolute value of a finite double. -/
def size (x : Double) : ℚ := x.significand * 2 ^ x.exponent

theorem size_nonneg (x : Double) : 0 ≤ x.size := by
  unfold size
  positivity

theorem toRatio_pos (x : Double) : 0 < x.toRatio.2 := scale_pos _ one_pos _

theorem toRatio_eq (x : Double) : (x.toRatio.1 : ℚ) / x.toRatio.2 = x.size := by
  rw [toRatio, scale_eq, Nat.cast_one, div_one, size]

/-! ## Magnitudes and signs -/

theorem toNat_ofMagnitude (negative : Bool) {m : ℕ} (h : m < 2 ^ 63) :
    (ofMagnitude negative m).bits.toNat = (if negative then 2 ^ 63 else 0) + m := by
  have fits : (if negative then 2 ^ 63 else 0) + m < 2 ^ 64 := by split <;> omega
  rw [ofMagnitude, Nat.toUInt64, UInt64.toNat_ofNat']
  exact Nat.mod_eq_of_lt fits

theorem magnitude_ofMagnitude (negative : Bool) {m : ℕ} (h : m < 2 ^ 63) :
    (ofMagnitude negative m).magnitude = m := by
  rw [magnitude, toNat_ofMagnitude negative h]
  split <;> omega

theorem isNegative_ofMagnitude (negative : Bool) {m : ℕ} (h : m < 2 ^ 63) :
    (ofMagnitude negative m).isNegative = negative := by
  rw [isNegative, toNat_ofMagnitude negative h]
  cases negative
  · simpa using h
  · simp

theorem magnitude_lt (x : Double) : x.magnitude < 2 ^ 63 := Nat.mod_lt _ (by decide)

/-- A double is its sign and its magnitude. -/
theorem ext_magnitude {x y : Double} (sign : x.isNegative = y.isNegative)
    (magnitude : x.magnitude = y.magnitude) : x = y := by
  have := x.bits.toNat_lt
  have := y.bits.toNat_lt
  unfold Double.magnitude at magnitude
  have top : 2 ^ 63 ≤ x.bits.toNat ↔ 2 ^ 63 ≤ y.bits.toNat := by simpa [isNegative] using sign
  have bits : x.bits = y.bits := UInt64.toNat_inj.mp (by omega)
  cases x
  cases y
  exact congrArg Double.mk bits

theorem rounds_ofRatio (negative : Bool) (num : ℕ) {den : ℕ} (pos : 0 < den) :
    Rounds (num / den) (ofRatio negative num den).magnitude := by
  have rounds := rounds_roundRatio num pos
  have := rounds.le_infinity
  rwa [ofRatio, magnitude_ofMagnitude negative (by unfold infinity at this; omega)]

theorem isNegative_ofRatio (negative : Bool) (num : ℕ) {den : ℕ} (pos : 0 < den) :
    (ofRatio negative num den).isNegative = negative := by
  have := (rounds_roundRatio num pos).le_infinity
  exact isNegative_ofMagnitude negative (by unfold infinity at this; omega)

theorem isNegative_ofNat (n : ℕ) : (ofNat n).isNegative = false := isNegative_ofRatio _ n one_pos

theorem isNegative_mul (x y : Double) : (x.mul y).isNegative = (x.isNegative != y.isNegative) :=
  isNegative_ofRatio _ _ (Nat.mul_pos x.toRatio_pos y.toRatio_pos)

theorem rounds_ofNat (n : ℕ) : Rounds n (ofNat n).magnitude := by
  have rounds := rounds_ofRatio false n one_pos
  rwa [Nat.cast_one, div_one] at rounds

theorem rounds_mul (x y : Double) : Rounds (x.size * y.size) (x.mul y).magnitude := by
  have rounds := rounds_ofRatio (x.isNegative != y.isNegative) (x.toRatio.1 * y.toRatio.1)
    (Nat.mul_pos x.toRatio_pos y.toRatio_pos)
  rwa [Nat.cast_mul, Nat.cast_mul, mul_div_mul_comm, toRatio_eq, toRatio_eq] at rounds

theorem toRatio_num_pos {x : Double} (pos : 0 < x.size) : 0 < x.toRatio.1 := by
  rw [← toRatio_eq] at pos
  by_contra none
  rw [Nat.eq_zero_of_not_pos none, Nat.cast_zero, zero_div] at pos
  exact lt_irrefl 0 pos

theorem isNegative_div (x : Double) {y : Double} (pos : 0 < y.size) :
    (x.div y).isNegative = (x.isNegative != y.isNegative) :=
  isNegative_ofRatio _ _ (Nat.mul_pos x.toRatio_pos (toRatio_num_pos pos))

theorem rounds_div (x : Double) {y : Double} (pos : 0 < y.size) :
    Rounds (x.size / y.size) (x.div y).magnitude := by
  have num_pos := toRatio_num_pos pos
  have rounds := rounds_ofRatio (x.isNegative != y.isNegative) (x.toRatio.1 * y.toRatio.2)
    (Nat.mul_pos x.toRatio_pos num_pos)
  rwa [Nat.cast_mul, Nat.cast_mul, mul_div_mul_comm, toRatio_eq, ← inv_div (y.toRatio.1 : ℚ),
    toRatio_eq, ← div_eq_mul_inv] at rounds

/-! ## Sizes of magnitudes -/

theorem significand_lt (x : Double) : x.significand < 2 ^ 53 := by
  unfold significand
  split <;> omega

theorem le_significand (x : Double) : x.exponent = -1074 ∨ 2 ^ 52 ≤ x.significand := by
  unfold exponent significand
  split <;> omega

theorem least_exponent (x : Double) : -1074 ≤ x.exponent := by unfold exponent; omega

theorem magnitude_eq (x : Double) :
    x.magnitude = (x.exponent + 1074).toNat * 2 ^ 52 + x.significand := by
  unfold exponent significand
  split <;> omega

/-- The same units in the same last place are the same magnitude, even where they are a power of
two and so have a place of their own. -/
theorem size_eq {x : Double} {e : ℤ} {k : ℕ} (least : -1074 ≤ e) (high : k ≤ 2 ^ 53)
    (low : e = -1074 ∨ 2 ^ 52 ≤ k) (h : x.magnitude = (e + 1074).toNat * 2 ^ 52 + k) :
    x.size = k * 2 ^ e := by
  have own := magnitude_eq x
  have := least_exponent x
  have := significand_lt x
  have := le_significand x
  rcases high.lt_or_eq with less | rfl
  · obtain ⟨rfl, rfl⟩ : x.exponent = e ∧ x.significand = k := by omega
    rfl
  · have exponent : x.exponent = e + 1 := by omega
    have significand : x.significand = 2 ^ 52 := by omega
    rw [size, exponent, significand, zpow_add_one₀ two_ne_zero]
    push_cast
    ring

theorem magnitude_lt_infinity {x : Double} (h : x.isFinite) : x.magnitude < infinity := by
  simpa [isFinite] using h

theorem exponent_le {x : Double} (h : x.isFinite) : x.exponent ≤ 971 := by
  have := magnitude_lt_infinity h
  unfold infinity at this
  unfold exponent
  omega

/-- A finite double is itself the double nearest to its size. -/
theorem rounds_size {x : Double} (h : x.isFinite) : Rounds x.size x.magnitude := by
  have pos : (0 : ℚ) < 2 ^ x.exponent := by positivity
  have units : x.size * 2 ^ (-x.exponent) = x.significand := by
    rw [size, mul_assoc, ← zpow_add₀ two_ne_zero, add_neg_cancel, zpow_zero, mul_one]
  have high : (x.significand : ℚ) < 2 ^ 53 := by exact_mod_cast significand_lt x
  have last : LastPlace x.size x.exponent := by
    refine ⟨least_exponent x, ?_, (le_significand x).imp_right fun low => ?_⟩
    · rw [zpow_high, size]
      exact mul_lt_mul_of_pos_right high pos
    · rw [zpow_low, size]
      exact mul_le_mul_of_nonneg_right (by exact_mod_cast low) pos.le
  refine ⟨x.exponent, x.significand, last, units ▸ nearest_natCast _, ?_⟩
  rw [place, if_neg (by have := exponent_le h; omega), magnitude_eq]

theorem size_mono {x y : Double} (h : x.magnitude ≤ y.magnitude) : x.size ≤ y.size := by
  have hx := magnitude_eq x
  have hy := magnitude_eq y
  have := least_exponent x
  have := least_exponent y
  have short := significand_lt x
  have := significand_lt y
  have := le_significand x
  have full := le_significand y
  rcases (show x.exponent ≤ y.exponent by omega).lt_or_eq with less | same
  · have high : (x.significand : ℚ) ≤ 2 ^ 53 := by exact_mod_cast short.le
    have low : (2 : ℚ) ^ 52 ≤ y.significand := by exact_mod_cast (show 2 ^ 52 ≤ _ by omega)
    calc x.size ≤ 2 ^ 53 * 2 ^ x.exponent := mul_le_mul_of_nonneg_right high (by positivity)
      _ = 2 ^ 52 * 2 ^ (x.exponent + 1) := by rw [zpow_add_one₀ two_ne_zero]; ring
      _ ≤ 2 ^ 52 * 2 ^ y.exponent :=
        mul_le_mul_of_nonneg_left (zpow_le (by omega)) (by positivity)
      _ ≤ y.size := mul_le_mul_of_nonneg_right low (by positivity)
  · have units : (x.significand : ℚ) ≤ y.significand := by
      exact_mod_cast (show x.significand ≤ y.significand by rw [same] at hx; omega)
    rw [size, size, same]
    exact mul_le_mul_of_nonneg_right units (by positivity)

/-! ## What rounding does not change -/

/-- A number of at most 53 bits, in units that doubles have, is not changed by rounding. -/
theorem Rounds.size_eq {x : Double} {a : ℕ} {j : ℤ} (h : Rounds (a * 2 ^ j) x.magnitude)
    (finite : x.isFinite) (short : a < 2 ^ 53) (least : -1074 ≤ j) : x.size = a * 2 ^ j := by
  obtain ⟨e, k, last, nearest, eq⟩ := h
  have le : e ≤ j := by
    by_contra more
    rcases last.low with low | low
    · omega
    · have shortQ : (a : ℚ) < 2 ^ 53 := by exact_mod_cast short
      have : (a : ℚ) * 2 ^ j < 2 ^ 53 * 2 ^ j :=
        mul_lt_mul_of_pos_right shortQ (by positivity)
      have : (2 : ℚ) ^ 53 * 2 ^ j ≤ 2 ^ (52 + e) := by
        rw [← zpow_natCast, ← zpow_add₀ two_ne_zero]
        exact zpow_le (by push_cast; omega)
      linarith
  obtain ⟨n, gap⟩ := Int.eq_ofNat_of_zero_le (show 0 ≤ j + -e by omega)
  have units : (a : ℚ) * 2 ^ j * 2 ^ (-e) = (a * 2 ^ n : ℕ) := by
    rw [mul_assoc, ← zpow_add₀ two_ne_zero, gap]
    push_cast
    rw [zpow_natCast]
  rw [units] at nearest
  obtain rfl : a * 2 ^ n = k :=
    le_antisymm ((nearest_natCast _).mono nearest le_rfl) (nearest.mono (nearest_natCast _) le_rfl)
  rw [← units] at nearest
  obtain ⟨high, low⟩ := units_bounds last nearest
  have inside : ¬ 971 < e := by
    intro exceeds
    have := magnitude_lt_infinity finite
    rw [eq, place, if_pos exceeds] at this
    exact lt_irrefl _ this
  rw [place, if_neg inside] at eq
  rw [Double.size_eq last.least high low eq, ← units, mul_assoc, ← zpow_add₀ two_ne_zero,
    neg_add_cancel, zpow_zero, mul_one]

theorem isFinite_of_le {x y : Double} (h : x.magnitude ≤ y.magnitude) (finite : y.isFinite) :
    x.isFinite := by
  have := magnitude_lt_infinity finite
  simp only [isFinite, decide_eq_true_eq]
  omega

/-- Dividing by one or more leaves a number finite. -/
theorem isFinite_div {x y : Double} (finite : x.isFinite) (h : 1 ≤ y.size) :
    (x.div y).isFinite := by
  have le : x.size / y.size ≤ x.size := div_le_self x.size_nonneg h
  exact isFinite_of_le ((rounds_div x (by linarith)).mono (rounds_size finite) le) finite

theorem isFinite_ofNat_of_le {n m : ℕ} (le : n ≤ m) (finite : (ofNat m).isFinite) :
    (ofNat n).isFinite :=
  isFinite_of_le ((rounds_ofNat n).mono (rounds_ofNat m) (Nat.cast_le.mpr le)) finite

/-- Powers of ten up to the 308th are in the range of doubles. -/
theorem isFinite_ofNat {n p : ℕ} (h : n ≤ 10 ^ p) (inside : p ≤ 308) : (ofNat n).isFinite := by
  refine isFinite_ofNat_of_le (h.trans (Nat.pow_le_pow_right (by decide) inside)) ?_
  decide +kernel

theorem size_ofNat {n : ℕ} (short : n ≤ 2 ^ 53) : (ofNat n).size = n := by
  have finite : (ofNat n).isFinite :=
    isFinite_ofNat (p := 16) (short.trans (by decide)) (by decide)
  have rounds := rounds_ofNat n
  rcases short.lt_or_eq with less | rfl
  · have exact := Rounds.size_eq (a := n) (j := 0) (by simpa using rounds) finite less (by decide)
    simpa using exact
  · have exact := Rounds.size_eq (a := 1) (j := 53) (by exact_mod_cast rounds) finite (by decide)
      (by decide)
    rw [exact]
    norm_num

/-- The powers of ten whose odd part fits 53 bits. -/
theorem size_ofNat_pow {n : ℕ} (small : n ≤ 22) : (ofNat (10 ^ n)).size = 10 ^ n := by
  have finite : (ofNat (10 ^ n)).isFinite := isFinite_ofNat (Nat.le_refl _) (by omega)
  have parts : ((10 ^ n : ℕ) : ℚ) = (5 ^ n : ℕ) * 2 ^ (n : ℤ) := by
    rw [zpow_natCast]
    push_cast
    rw [← mul_pow]
    norm_num
  have odd : 5 ^ n < 2 ^ 53 :=
    Nat.lt_of_le_of_lt (Nat.pow_le_pow_right (by decide) small) (by decide)
  have rounds := rounds_ofNat (10 ^ n)
  rw [parts] at rounds
  rw [rounds.size_eq finite odd (by omega), ← parts]
  push_cast
  rfl

theorem one_le_size_ofNat {n : ℕ} (pos : 0 < n) : 1 ≤ (ofNat n).size := by
  have one : (ofNat 1).size = 1 := by simpa using size_ofNat (n := 1) (by decide)
  rw [← one]
  exact size_mono ((rounds_ofNat 1).mono (rounds_ofNat n) (by exact_mod_cast pos))

end MetricLedger.Double
