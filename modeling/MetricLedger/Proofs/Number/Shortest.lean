import MetricLedger.Number.Shortest
import MetricLedger.Proofs.Number.Size
import MetricLedger.Proofs.Text.Digits

/-!
# The digits of a double

A fraction within the basin of a double rounds to it. The decimal that is chosen for a positive
double lies within its basin, and there always is one: the gaps between the decimals of seventeen
digits are smaller than the basin.
-/

namespace MetricLedger

/-- The rational number of a decimal. -/
def Decimal.size (d : Decimal) : ℚ := d.digits * 10 ^ d.exponent

namespace Double

open Text.Digits (length_plain length_plain_pos)

/-! ## Decimal places -/

theorem ten_zpow_le {e f : ℤ} (h : e ≤ f) : (10 : ℚ) ^ e ≤ 10 ^ f :=
  zpow_le_zpow_right₀ (by norm_num) h

/-- The leading digit of a fraction stands in its leading place. -/
theorem leadingPlace_spec {num den : ℕ} (num_pos : 0 < num) (den_pos : 0 < den) :
    10 ^ leadingPlace num den ≤ (num : ℚ) / den ∧
      (num : ℚ) / den < 10 ^ (leadingPlace num den + 1) := by
  have numQ : (0 : ℚ) < num := by exact_mod_cast num_pos
  have denQ : (0 : ℚ) < den := by exact_mod_cast den_pos
  unfold leadingPlace
  split
  · rename_i le
    obtain ⟨high, low⟩ := length_plain (num / den)
    have low := low (Nat.div_pos le den_pos)
    obtain ⟨k, length⟩ : ∃ k, (Text.Digits.plain (num / den)).length = k + 1 :=
      Nat.exists_eq_succ_of_ne_zero (length_plain_pos _).ne'
    rw [length] at high low ⊢
    rw [Nat.add_sub_cancel] at low
    have low := (Nat.le_div_iff_mul_le den_pos).mp low
    have high := (Nat.div_lt_iff_lt_mul den_pos).mp high
    push_cast
    rw [add_sub_cancel_right, zpow_natCast, ← Nat.cast_succ, zpow_natCast, le_div_iff₀ denQ,
      div_lt_iff₀ denQ]
    exact ⟨by exact_mod_cast low, by exact_mod_cast high⟩
  · -- The place is that of the reciprocal rounded up, less one so that a power of ten counts down.
    rename_i less
    have less := Nat.lt_of_not_le less
    have ceiling : (den + num - 1) / num - 1 = (den - 1) / num := by
      rw [show den + num - 1 = den - 1 + num by omega, Nat.add_div_right _ num_pos]
      rfl
    rw [ceiling]
    obtain ⟨high, low⟩ := length_plain ((den - 1) / num)
    have low := low (Nat.div_pos (by omega) num_pos)
    obtain ⟨k, length⟩ : ∃ k, (Text.Digits.plain ((den - 1) / num)).length = k + 1 :=
      Nat.exists_eq_succ_of_ne_zero (length_plain_pos _).ne'
    rw [length] at high low ⊢
    rw [Nat.add_sub_cancel] at low
    have low := (Nat.le_div_iff_mul_le num_pos).mp low
    have high := (Nat.div_lt_iff_lt_mul num_pos).mp high
    have power (j : ℕ) : (0 : ℚ) < 10 ^ j := by positivity
    rw [show -((k + 1 : ℕ) : ℤ) + 1 = -(k : ℤ) by push_cast; ring, zpow_neg, zpow_neg,
      zpow_natCast, zpow_natCast, le_div_iff₀ denQ, div_lt_iff₀ denQ, inv_mul_le_iff₀ (power _),
      lt_inv_mul_iff₀ (power _)]
    constructor
    · exact_mod_cast (show den ≤ 10 ^ (k + 1) * num by omega)
    · exact_mod_cast (show 10 ^ k * num < den by omega)

/-! ## Basins -/

/-- A number between the midpoints to the neighbours of a double. -/
def Basin.Within (b : Basin) (q : ℚ) : Prop :=
  (b.low : ℚ) / b.den ≤ q ∧ q ≤ (b.high : ℚ) / b.den ∧
    (b.closed = false → (b.low : ℚ) / b.den ≠ q ∧ q ≠ (b.high : ℚ) / b.den)

theorem Basin.holds_iff {b : Basin} (pos : 0 < b.den) (num : ℕ) {den : ℕ} (den_pos : 0 < den) :
    b.holds num den = true ↔ b.Within (num / den) := by
  have posQ : (0 : ℚ) < b.den := by exact_mod_cast pos
  have denQ : (0 : ℚ) < den := by exact_mod_cast den_pos
  unfold Basin.holds Basin.Within
  rw [div_le_div_iff₀ posQ denQ, div_le_div_iff₀ denQ posQ, Ne, Ne,
    div_eq_div_iff posQ.ne' denQ.ne', div_eq_div_iff denQ.ne' posQ.ne']
  dsimp only
  norm_cast
  cases b.closed
  · simp only [Bool.false_eq_true, if_false, Bool.and_eq_true, decide_eq_true_eq, forall_const]
    omega
  · simp only [if_true, Bool.and_eq_true, decide_eq_true_eq, Bool.true_eq_false, false_imp_iff,
      and_true]

section
variable {x : Double} (nonzero : x.isZero = false)

theorem basin_den_pos (x : Double) : 0 < x.basin.den := scale_pos 1 (by decide) _

theorem unit_eq (x : Double) :
    ((scale 1 4 x.exponent).1 : ℚ) / (scale 1 4 x.exponent).2 = 2 ^ x.exponent / 4 := by
  rw [scale_eq, Nat.cast_one]
  push_cast
  ring

theorem basin_value (x : Double) : (x.basin.value : ℚ) / x.basin.den = x.size := by
  have unit := unit_eq x
  unfold basin
  dsimp only
  push_cast
  rw [mul_div_assoc, unit, size]
  ring

theorem basin_high (x : Double) :
    (x.basin.high : ℚ) / x.basin.den = (x.significand + 1 / 2) * 2 ^ x.exponent := by
  have unit := unit_eq x
  unfold basin
  dsimp only
  push_cast
  rw [mul_div_assoc, unit]
  ring

/-- The midpoint below a power of two is nearer to it. -/
def gapBelow (x : Double) : ℚ :=
  if x.significand = 2 ^ 52 ∧ -1074 < x.exponent then 1 / 4 else 1 / 2

theorem gapBelow_le (x : Double) : x.gapBelow ≤ 1 / 2 := by
  unfold gapBelow
  split <;> norm_num

include nonzero

theorem significand_pos : 0 < x.significand := by
  have magnitude : x.magnitude ≠ 0 := by simpa [isZero] using nonzero
  unfold significand
  split <;> omega

theorem basin_low :
    (x.basin.low : ℚ) / x.basin.den = (x.significand - x.gapBelow) * 2 ^ x.exponent := by
  have unit := unit_eq x
  have positive := significand_pos nonzero
  unfold basin gapBelow
  dsimp only
  push_cast
  rw [mul_div_assoc, unit]
  split
  · rw [Nat.cast_sub (by omega)]
    push_cast
    ring
  · rw [Nat.cast_sub (by omega)]
    push_cast
    ring

omit nonzero in
/-- A number in the same last place as a double rounds to it where it is nearest to its units. -/
theorem rounds_of_units (finite : x.isFinite) {q : ℚ}
    (above : x.exponent = -1074 ∨ 2 ^ 52 * 2 ^ x.exponent ≤ q) (below : q < 2 ^ 53 * 2 ^ x.exponent)
    (nearest : Nearest (q / 2 ^ x.exponent) x.significand) : Rounds q x.magnitude := by
  have most := exponent_le finite
  rw [← zpow_low] at above
  rw [← zpow_high] at below
  rw [div_eq_mul_inv, ← zpow_neg] at nearest
  refine ⟨_, _, ⟨least_exponent x, below, above⟩, nearest, ?_⟩
  rw [place, if_neg (by omega), magnitude_eq]

omit nonzero in
/-- Just below a power of two the last place is a smaller one, and it takes one unit more to reach
the power. -/
theorem rounds_below_power (finite : x.isFinite) (power : x.significand = 2 ^ 52)
    (least : -1074 < x.exponent) {q : ℚ} (low : (2 ^ 52 - 1 / 4) * 2 ^ x.exponent ≤ q)
    (high : q < 2 ^ 52 * 2 ^ x.exponent) : Rounds q x.magnitude := by
  have most := exponent_le finite
  have magnitude := magnitude_eq x
  obtain ⟨d, exponent⟩ : ∃ d, x.exponent = d + 1 := ⟨x.exponent - 1, by omega⟩
  rw [exponent] at least most magnitude low high
  rw [zpow_add_one₀ two_ne_zero] at low high
  have half : (0 : ℚ) < 2 ^ d := by positivity
  refine ⟨d, 2 ^ 53, ⟨by omega, ?_, .inr ?_⟩, ⟨?_, ?_, fun _ => by decide⟩, ?_⟩
  · rw [zpow_high]
    linarith
  · rw [zpow_low]
    linarith
  · rw [zpow_neg, ← div_eq_mul_inv, le_div_iff₀ half]
    push_cast
    linarith
  · rw [zpow_neg, ← div_eq_mul_inv, div_le_iff₀ half]
    push_cast
    linarith
  · rw [magnitude, power, place, if_neg (by omega)]
    omega

/-- The numbers of a basin round to its double. -/
theorem Basin.Within.rounds (finite : x.isFinite) {q : ℚ} (h : x.basin.Within q) :
    Rounds q x.magnitude := by
  obtain ⟨low, high, inside⟩ := h
  rw [basin_low nonzero] at low inside
  rw [basin_high] at high inside
  have unit : (0 : ℚ) < 2 ^ x.exponent := by positivity
  have inside (odd : x.significand % 2 ≠ 0) := inside (by simpa [basin] using odd)
  have gap := gapBelow_le x
  by_cases below : (x.significand = 2 ^ 52 ∧ -1074 < x.exponent) ∧ q < 2 ^ 52 * 2 ^ x.exponent
  · obtain ⟨power, less⟩ := below
    rw [gapBelow, if_pos power, power.1] at low
    exact rounds_below_power finite power.1 power.2 (by exact_mod_cast low) less
  · have short : (x.significand : ℚ) + 1 ≤ 2 ^ 53 := by exact_mod_cast significand_lt x
    refine rounds_of_units finite ?_ ?_ ⟨?_, ?_, ?_⟩
    · rcases le_significand x with least | full
      · exact .inl least
      · have := least_exponent x
        rcases full.lt_or_eq with more | power
        · have more : (2 : ℚ) ^ 52 + 1 ≤ x.significand := by exact_mod_cast more
          exact .inr (le_trans (mul_le_mul_of_nonneg_right (by linarith) unit.le) low)
        · by_contra neither
          rw [not_or, not_le] at neither
          exact below ⟨⟨power.symm, by omega⟩, neither.2⟩
    · exact high.trans_lt (mul_lt_mul_of_pos_right (by linarith) unit)
    · rw [le_div_iff₀ unit]
      exact le_trans (mul_le_mul_of_nonneg_right (by linarith) unit.le) low
    · rwa [div_le_iff₀ unit]
    · rw [div_eq_iff unit.ne', div_eq_iff unit.ne']
      intro tie
      by_contra odd
      obtain ⟨notLow, notHigh⟩ := inside odd
      rw [gapBelow, if_neg (by omega)] at notLow
      exact tie.elim (fun eq => notLow eq.symm) notHigh

end

/-! ## Grids -/

/-- A power of ten as a fraction. -/
theorem exists_tens (place : ℤ) : ∃ unit per : ℕ,
    (if 0 ≤ place then (10 ^ place.toNat, 1) else (1, 10 ^ (-place).toNat)) = (unit, per) ∧
      0 < unit ∧ 0 < per ∧ (unit : ℚ) / per = 10 ^ place := by
  split
  · rename_i nonneg
    obtain ⟨n, rfl⟩ := Int.eq_ofNat_of_zero_le nonneg
    refine ⟨_, _, rfl, Nat.pow_pos (by decide), by decide, ?_⟩
    rw [Int.toNat_natCast, zpow_natCast]
    push_cast
    rw [div_one]
  · rename_i neg
    obtain ⟨n, eq⟩ := Int.eq_ofNat_of_zero_le (show 0 ≤ -place by omega)
    refine ⟨_, _, rfl, by decide, Nat.pow_pos (by decide), ?_⟩
    rw [eq, Int.toNat_natCast, ← neg_neg place, eq, zpow_neg, zpow_natCast]
    push_cast
    rw [one_div]

theorem roundDiv_eq (num den : ℕ) :
    roundDiv num den = num / den ∨ roundDiv num den = num / den + 1 := by
  unfold roundDiv
  dsimp only
  split
  · exact .inr rfl
  · exact .inl rfl

section
variable {b : Basin} (pos : 0 < b.den) {place : ℤ}
include pos

/-- What is found on a grid is a multiple of its unit within the basin. -/
theorem onGrid?_within {d : Decimal} (h : b.onGrid? place = some d) :
    d.exponent = place ∧ b.Within d.size := by
  obtain ⟨unit, per, tens, -, per_pos, ratio⟩ := exists_tens place
  have holds {k : ℕ} (h : b.holds (k * unit) per = true) : b.Within (Decimal.size ⟨k, place⟩) := by
    have within := (Basin.holds_iff pos (k * unit) per_pos).mp h
    rwa [Nat.cast_mul, mul_div_assoc, ratio] at within
  unfold Basin.onGrid? at h
  rw [tens] at h
  dsimp only at h
  split at h
  · rename_i both
    cases h
    simp only [Bool.and_eq_true] at both
    refine ⟨rfl, ?_⟩
    rcases roundDiv_eq (b.value * per) (b.den * unit) with best | best
    · exact holds (best ▸ both.1.2)
    · exact holds (best ▸ both.2)
  · split at h
    · rename_i down
      cases h
      simp only [Bool.and_eq_true] at down
      exact ⟨rfl, holds down.2⟩
    · split at h
      · rename_i up
        cases h
        exact ⟨rfl, holds up⟩
      · cases h

/-- On a grid that is fine enough there is a member of the basin. -/
theorem isSome_onGrid? {v : ℚ} (value : (b.value : ℚ) / b.den = v) (fine : 10 ^ place ≤ v)
    (low : (b.low : ℚ) / b.den + 10 ^ place / 2 < v)
    (high : v + 10 ^ place / 2 < (b.high : ℚ) / b.den) : (b.onGrid? place).isSome := by
  obtain ⟨unit, per, tens, unit_pos, per_pos, ratio⟩ := exists_tens place
  have posQ : (0 : ℚ) < b.den := by exact_mod_cast pos
  have unitQ : (0 : ℚ) < unit := by exact_mod_cast unit_pos
  have perQ : (0 : ℚ) < per := by exact_mod_cast per_pos
  have holds {k : ℕ} (above : (b.low : ℚ) / b.den < k * 10 ^ place)
      (below : k * 10 ^ place < (b.high : ℚ) / b.den) : b.holds (k * unit) per = true := by
    rw [Basin.holds_iff pos _ per_pos, Nat.cast_mul, mul_div_assoc, ratio]
    exact ⟨above.le, below.le, fun _ => ⟨above.ne, below.ne⟩⟩
  have step : 0 < b.den * unit := Nat.mul_pos pos unit_pos
  have scaled : ((b.value * per : ℕ) : ℚ) = v * (per / unit) * (b.den * unit : ℕ) := by
    push_cast
    rw [← value]
    field_simp
  have stepQ : (0 : ℚ) < (b.den * unit : ℕ) := by exact_mod_cast step
  have power : (0 : ℚ) < 10 ^ place := by positivity
  have inverse : (per : ℚ) / unit = (10 ^ place)⁻¹ := by rw [← ratio, inv_div]
  -- The value lies between two neighbours on the grid, and is near to one of them.
  obtain ⟨down, eq⟩ : ∃ down, b.value * per / (b.den * unit) = down := ⟨_, rfl⟩
  have below : (down : ℚ) * 10 ^ place ≤ v := by
    have le := (Nat.le_div_iff_mul_le step).mp eq.ge
    have leQ : (down : ℚ) * (b.den * unit : ℕ) ≤ (b.value * per : ℕ) := by exact_mod_cast le
    rw [scaled, inverse] at leQ
    rw [← le_div_iff₀ power, div_eq_mul_inv]
    exact le_of_mul_le_mul_right leQ stepQ
  have above : v < (down + 1) * 10 ^ place := by
    have lt := (Nat.div_lt_iff_lt_mul step).mp (Nat.lt_succ_of_le eq.le)
    have ltQ : ((b.value * per : ℕ) : ℚ) < (down + 1 : ℕ) * (b.den * unit : ℕ) := by
      exact_mod_cast lt
    rw [scaled, inverse] at ltQ
    rw [← div_lt_iff₀ power, div_eq_mul_inv]
    exact_mod_cast lt_of_mul_lt_mul_right ltQ stepQ.le
  unfold Basin.onGrid?
  rw [tens]
  dsimp only
  rw [eq]
  rcases le_or_gt (v - down * 10 ^ place) (10 ^ place / 2) with near | far
  · have positive : 0 < down := by
      by_contra none
      rw [Nat.eq_zero_of_not_pos none] at above
      push_cast at above
      linarith
    have found := @holds down (by linarith) (by linarith)
    simp only [found, decide_eq_true positive, Bool.and_self, Bool.true_and, if_true]
    split <;> rfl
  · have found := @holds (down + 1) (by push_cast; linarith) (by push_cast; linarith)
    simp only [found, Bool.and_true, if_true]
    split <;> rfl

end

/-! ## The shortest decimal -/

section
variable {x : Double} (nonzero : x.isZero = false)
include nonzero

theorem size_pos : 0 < x.size := by
  have positive : (0 : ℚ) < x.significand := by exact_mod_cast significand_pos nonzero
  exact mul_pos positive (by positivity)

/-- The basin reaches farther from the double than half the unit of the seventeenth digit. -/
theorem basin_wide {place : ℤ} (h : 10 ^ (place + 16) ≤ x.size) :
    (x.basin.low : ℚ) / x.basin.den + 10 ^ place / 2 < x.size ∧
      x.size + 10 ^ place / 2 < (x.basin.high : ℚ) / x.basin.den := by
  have unit : (0 : ℚ) < 2 ^ x.exponent := by positivity
  have positive := size_pos nonzero
  have short : (x.significand : ℚ) + 1 ≤ 2 ^ 53 := by exact_mod_cast significand_lt x
  rw [zpow_add₀ (by norm_num)] at h
  have narrow : (10 : ℚ) ^ place / 2 < x.size / 2 ^ 54 := by
    rw [lt_div_iff₀ (by positivity)]
    norm_num at h ⊢
    linarith
  have gap : x.size / 2 ^ 54 ≤ x.gapBelow * 2 ^ x.exponent := by
    rw [size, mul_div_right_comm]
    refine mul_le_mul_of_nonneg_right ?_ unit.le
    unfold gapBelow
    split
    · rename_i power
      rw [power.1]
      norm_num
    · rw [div_le_iff₀ (by positivity)]
      linarith
  have half : x.gapBelow * 2 ^ x.exponent ≤ 1 / 2 * 2 ^ x.exponent :=
    mul_le_mul_of_nonneg_right (gapBelow_le x) unit.le
  rw [basin_low nonzero, basin_high]
  rw [size] at narrow gap ⊢
  constructor
  · linarith
  · linarith

/-- The place of the leading digit of a double. -/
theorem leadingPlace_size : 10 ^ leadingPlace x.basin.value x.basin.den ≤ x.size ∧
    x.size < 10 ^ (leadingPlace x.basin.value x.basin.den + 1) := by
  have value := basin_value x
  have positive := size_pos nonzero
  have value_pos : 0 < x.basin.value := by
    by_contra none
    rw [Nat.eq_zero_of_not_pos none, Nat.cast_zero, zero_div] at value
    exact positive.ne value
  have place := leadingPlace_spec value_pos (basin_den_pos x)
  rwa [value] at place

theorem leadingPlace_bounds (finite : x.isFinite) :
    -1075 ≤ leadingPlace x.basin.value x.basin.den ∧
      leadingPlace x.basin.value x.basin.den ≤ 1024 := by
  obtain ⟨low, high⟩ := leadingPlace_size nonzero
  have one : (1 : ℚ) ≤ x.significand := by exact_mod_cast significand_pos nonzero
  have short : (x.significand : ℚ) ≤ 2 ^ 53 := by exact_mod_cast (significand_lt x).le
  have tens {n : ℤ} (nonneg : 0 ≤ n) : (2 : ℚ) ^ n ≤ 10 ^ n :=
    zpow_le_zpow_left₀ nonneg (by norm_num) (by norm_num)
  have least : (10 : ℚ) ^ (-1074 : ℤ) ≤ x.size := by
    calc (10 : ℚ) ^ (-1074 : ℤ) ≤ 2 ^ (-1074 : ℤ) := by
          rw [zpow_neg, zpow_neg]
          exact inv_anti₀ (by positivity) (tens (by decide))
      _ ≤ 2 ^ x.exponent := zpow_le (least_exponent x)
      _ ≤ x.size := le_mul_of_one_le_left (by positivity) one
  have most : x.size ≤ 10 ^ (1024 : ℤ) := by
    calc x.size ≤ 2 ^ 53 * 2 ^ x.exponent := mul_le_mul_of_nonneg_right short (by positivity)
      _ = 2 ^ (53 + x.exponent) := (zpow_high _).symm
      _ ≤ 2 ^ (1024 : ℤ) := zpow_le (by have := exponent_le finite; omega)
      _ ≤ 10 ^ (1024 : ℤ) := tens (by decide)
  have ten : (1 : ℚ) < 10 := by norm_num
  have above := (zpow_lt_zpow_iff_right₀ ten).mp (least.trans_lt high)
  have below := (zpow_le_zpow_iff_right₀ ten).mp (low.trans most)
  exact ⟨by omega, below⟩

theorem shortest_eq : ∃ place, place ∈ x.basin.grids ∧ x.basin.onGrid? place = some x.shortest := by
  have den_pos := basin_den_pos x
  have low := (leadingPlace_size nonzero).1
  have last : leadingPlace x.basin.value x.basin.den - 16 ∈ x.basin.grids := by
    refine List.mem_map.mpr ⟨17, by decide, ?_⟩
    push_cast
    ring
  have found : (x.basin.onGrid? (leadingPlace x.basin.value x.basin.den - 16)).isSome := by
    obtain ⟨below, above⟩ := @basin_wide _ nonzero (leadingPlace x.basin.value x.basin.den - 16)
      (by rwa [sub_add_cancel])
    exact isSome_onGrid? den_pos (basin_value x) ((ten_zpow_le (by omega)).trans low) below above
  unfold shortest
  rw [nonzero, if_neg (by decide)]
  cases chosen : x.basin.grids.findSome? x.basin.onGrid? with
  | none =>
    rw [List.findSome?_eq_none_iff] at chosen
    rw [chosen _ last] at found
    cases found
  | some d =>
    obtain ⟨place, mem, onGrid⟩ := List.exists_of_findSome?_eq_some chosen
    exact ⟨place, mem, onGrid⟩

/-- The digits of a double round to it. -/
theorem shortest_rounds (finite : x.isFinite) : Rounds x.shortest.size x.magnitude := by
  obtain ⟨place, -, onGrid⟩ := shortest_eq nonzero
  exact Basin.Within.rounds nonzero finite (onGrid?_within (basin_den_pos x) onGrid).2

/-- The digits of a double fit 64 bits, and their places are not far from those of doubles. -/
theorem shortest_bounds (finite : x.isFinite) :
    x.shortest.digits < 10 ^ 18 ∧ -1100 ≤ x.shortest.exponent ∧ x.shortest.exponent ≤ 1100 := by
  obtain ⟨place, mem, onGrid⟩ := shortest_eq nonzero
  obtain ⟨exponent, within⟩ := onGrid?_within (basin_den_pos x) onGrid
  obtain ⟨n, below, rfl⟩ := List.mem_map.mp mem
  have below := List.mem_range.mp below
  have bounds := leadingPlace_bounds nonzero finite
  refine ⟨?_, by omega, by omega⟩
  have high := (leadingPlace_size nonzero).2
  have top := within.2.1
  rw [basin_high, Decimal.size] at top
  have one : (1 : ℚ) ≤ x.significand := by exact_mod_cast significand_pos nonzero
  have twice : (x.significand + 1 / 2) * (2 : ℚ) ^ x.exponent ≤ 2 * x.size := by
    rw [size, ← mul_assoc]
    exact mul_le_mul_of_nonneg_right (by linarith) (by positivity)
  have scale : (10 : ℚ) ^ (leadingPlace x.basin.value x.basin.den + 1) ≤
      10 ^ 17 * 10 ^ x.shortest.exponent := by
    rw [← zpow_natCast, ← zpow_add₀ (by norm_num)]
    exact ten_zpow_le (by push_cast; omega)
  have power : (0 : ℚ) < 10 ^ x.shortest.exponent := by positivity
  have bound : (x.shortest.digits : ℚ) * 10 ^ x.shortest.exponent <
      10 ^ 18 * 10 ^ x.shortest.exponent := by linarith
  exact_mod_cast lt_of_mul_lt_mul_right bound power.le

end

end Double

end MetricLedger
