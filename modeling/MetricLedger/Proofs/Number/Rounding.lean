import Mathlib.Algebra.Order.Field.Power
import Mathlib.Data.Rat.Cast.Order
import Mathlib.Tactic.FieldSimp
import Mathlib.Tactic.Linarith
import Mathlib.Tactic.NormNum
import Mathlib.Tactic.Positivity
import Mathlib.Tactic.Ring
import MetricLedger.Number.Double

/-!
# Rounding to doubles

What rounding does to a fraction, said of the rational number that the fraction stands for: the last
place is fixed by the powers of two around the number, and the count of units in that place is the
nearest one, a tie going to the even one. So numbers that are equal round to one double, and larger
numbers round to doubles that are not smaller.
-/

namespace MetricLedger.Double

/-! ## Nearest natural numbers -/

/-- A natural number nearest to `q`, the even one where there are two. -/
structure Nearest (q : ℚ) (k : ℕ) : Prop where
  low : (k : ℚ) - 1 / 2 ≤ q
  high : q ≤ k + 1 / 2
  tie : q = k - 1 / 2 ∨ q = k + 1 / 2 → k % 2 = 0

theorem Nearest.mono {q p : ℚ} {k l : ℕ} (h : Nearest q k) (g : Nearest p l) (le : q ≤ p) :
    k ≤ l := by
  by_contra less
  have next : (l : ℚ) + 1 ≤ k := by exact_mod_cast Nat.lt_of_not_le less
  -- Both numbers lie halfway between `l` and its successor `k`, of which only one is even.
  have := h.low
  have := g.high
  have even := h.tie (.inl (by linarith))
  have even' := g.tie (.inr (by linarith))
  have succ : (k : ℚ) = l + 1 := by linarith
  have succ : k = l + 1 := by exact_mod_cast succ
  omega

theorem nearest_natCast (k : ℕ) : Nearest k k := by
  refine ⟨by linarith, by linarith, ?_⟩
  rintro (h | h) <;> linarith

theorem nearest_down {q : ℕ} {s : ℚ} (nonneg : 0 ≤ s) (h : s < 1 / 2 ∨ s = 1 / 2 ∧ q % 2 = 0) :
    Nearest (q + s) q := by
  rcases h with less | ⟨rfl, even⟩
  · refine ⟨by linarith, by linarith, ?_⟩
    rintro (h | h) <;> linarith
  · exact ⟨by linarith, by linarith, fun _ => even⟩

theorem nearest_up {q : ℕ} {s : ℚ} (less : s < 1) (h : 1 / 2 < s ∨ s = 1 / 2 ∧ q % 2 = 1) :
    Nearest (q + s) (q + 1) := by
  have next : ((q + 1 : ℕ) : ℚ) = q + 1 := Nat.cast_succ q
  rcases h with more | ⟨rfl, odd⟩
  · refine ⟨by linarith, by linarith, ?_⟩
    rintro (h | h) <;> linarith
  · exact ⟨by linarith, by linarith, fun _ => by omega⟩

theorem nearest_roundDiv (num : ℕ) {den : ℕ} (pos : 0 < den) :
    Nearest (num / den) (roundDiv num den) := by
  have posQ : (0 : ℚ) < den := by exact_mod_cast pos
  have parts : (num : ℚ) = den * (num / den : ℕ) + (num % den : ℕ) := by
    exact_mod_cast (Nat.div_add_mod num den).symm
  have rest : num % den < den := Nat.mod_lt num pos
  unfold roundDiv
  generalize num / den = q at parts ⊢
  generalize num % den = r at parts rest ⊢
  have value : (num : ℚ) / den = q + r / den := by rw [parts]; field_simp
  have nonneg : (0 : ℚ) ≤ r / den := by positivity
  have share : (r : ℚ) / den < 1 := (div_lt_one posQ).mpr (by exact_mod_cast rest)
  have below : (r : ℚ) / den < 1 / 2 ↔ 2 * r < den := by
    rw [div_lt_div_iff₀ posQ two_pos, mul_comm, one_mul]
    exact_mod_cast Iff.rfl
  have half : (r : ℚ) / den = 1 / 2 ↔ 2 * r = den := by
    rw [div_eq_div_iff posQ.ne' two_ne_zero, mul_comm, one_mul]
    exact_mod_cast Iff.rfl
  have above : 1 / 2 < (r : ℚ) / den ↔ den < 2 * r := by
    rw [div_lt_div_iff₀ two_pos posQ, mul_comm (r : ℚ), one_mul]
    exact_mod_cast Iff.rfl
  rw [value]
  dsimp only
  split
  · refine nearest_up share ?_
    rw [above, half]
    simp_all
  · refine nearest_down nonneg ?_
    rw [below, half]
    rename_i no
    simp only [Bool.or_eq_true, Bool.and_eq_true, decide_eq_true_eq, beq_iff_eq] at no
    omega

/-! ## Last places -/

/-- The unit in the last place of the doubles around `q` is `2 ^ e`. -/
structure LastPlace (q : ℚ) (e : ℤ) : Prop where
  least : -1074 ≤ e
  high : q < 2 ^ (53 + e)
  low : e = -1074 ∨ 2 ^ (52 + e) ≤ q

theorem zpow_le {e f : ℤ} (h : e ≤ f) : (2 : ℚ) ^ e ≤ 2 ^ f := zpow_le_zpow_right₀ one_le_two h

theorem zpow_low (e : ℤ) : (2 : ℚ) ^ (52 + e) = 2 ^ 52 * 2 ^ e := zpow_add₀ two_ne_zero 52 e

theorem zpow_high (e : ℤ) : (2 : ℚ) ^ (53 + e) = 2 ^ 53 * 2 ^ e := zpow_add₀ two_ne_zero 53 e

theorem LastPlace.mono {q p : ℚ} {e f : ℤ} (h : LastPlace q e) (g : LastPlace p f) (le : q ≤ p) :
    e ≤ f := by
  by_contra less
  rcases h.low with least | low
  · have := g.least
    omega
  · have := zpow_le (show 53 + f ≤ 52 + e by omega)
    have := g.high
    linarith

theorem LastPlace.unique {q : ℚ} {e f : ℤ} (h : LastPlace q e) (g : LastPlace q f) : e = f :=
  le_antisymm (h.mono g le_rfl) (g.mono h le_rfl)

theorem scale_pos (num : ℕ) {den : ℕ} (pos : 0 < den) (e : ℤ) : 0 < (scale num den e).2 := by
  unfold scale
  split
  · exact pos
  · exact Nat.mul_pos pos (Nat.two_pow_pos _)

/-- Scaling multiplies by the power of two. -/
theorem scale_eq (num den : ℕ) (e : ℤ) :
    ((scale num den e).1 : ℚ) / (scale num den e).2 = num / den * 2 ^ e := by
  unfold scale
  split
  · rename_i nonneg
    obtain ⟨n, rfl⟩ := Int.eq_ofNat_of_zero_le nonneg
    push_cast
    rw [Int.toNat_natCast, zpow_natCast]
    ring
  · rename_i neg
    obtain ⟨n, eq⟩ := Int.eq_ofNat_of_zero_le (show 0 ≤ -e by omega)
    rw [eq, Int.toNat_natCast, ← neg_neg e, eq, zpow_neg, zpow_natCast]
    push_cast
    rw [div_mul_eq_div_div, div_eq_mul_inv _ ((2 : ℚ) ^ n)]

theorem lastPlace_spec {num den : ℕ} (num_pos : 0 < num) (den_pos : 0 < den) :
    LastPlace (num / den) (lastPlace num den) := by
  have posQ : (0 : ℚ) < den := by exact_mod_cast den_pos
  have a : (2 : ℚ) ^ (num.log2 : ℤ) ≤ num ∧ (num : ℚ) < 2 ^ (num.log2 + 1 : ℤ) := by
    constructor
    · exact_mod_cast Nat.log2_self_le num_pos.ne'
    · exact_mod_cast @Nat.lt_log2_self num
  have b : (2 : ℚ) ^ (den.log2 : ℤ) ≤ den ∧ (den : ℚ) < 2 ^ (den.log2 + 1 : ℤ) := by
    constructor
    · exact_mod_cast Nat.log2_self_le den_pos.ne'
    · exact_mod_cast @Nat.lt_log2_self den
  unfold lastPlace
  generalize guess : (num.log2 : ℤ) - den.log2 - 53 = e
  have above : (num : ℚ) / den < 2 ^ (54 + e) := by
    rw [div_lt_iff₀ posQ]
    calc (num : ℚ) < 2 ^ (num.log2 + 1 : ℤ) := a.2
      _ = 2 ^ (54 + e) * 2 ^ (den.log2 : ℤ) := by
        rw [← zpow_add₀ two_ne_zero]; congr 1; omega
      _ ≤ 2 ^ (54 + e) * den := mul_le_mul_of_nonneg_left b.1 (by positivity)
  have below : 2 ^ (52 + e) ≤ (num : ℚ) / den := by
    rw [le_div_iff₀ posQ]
    calc 2 ^ (52 + e) * (den : ℚ) ≤ 2 ^ (52 + e) * 2 ^ (den.log2 + 1 : ℤ) :=
          mul_le_mul_of_nonneg_left b.2.le (by positivity)
      _ = 2 ^ (num.log2 : ℤ) := by
        rw [← zpow_add₀ two_ne_zero]; congr 1; omega
      _ ≤ num := a.1
  have scaled := scale_eq num den (-e)
  have positive := scale_pos num den_pos (-e)
  dsimp only
  generalize (scale num den (-e)).1 = n at scaled ⊢
  generalize (scale num den (-e)).2 = d at scaled positive ⊢
  have posD : (0 : ℚ) < d := by exact_mod_cast positive
  have decided : n < 2 ^ 53 * d ↔ (num : ℚ) / den < 2 ^ (53 + e) := by
    rw [zpow_high, ← div_lt_iff₀ (by positivity : (0 : ℚ) < 2 ^ e),
      div_eq_mul_inv _ ((2 : ℚ) ^ e), ← zpow_neg, ← scaled, div_lt_iff₀ posD]
    exact_mod_cast Iff.rfl
  -- Whichever of the two guesses is right, it gives way to the least place that there is.
  have settle {f : ℤ} (high : (num : ℚ) / den < 2 ^ (53 + f))
      (low : 2 ^ (52 + f) ≤ (num : ℚ) / den) : LastPlace (num / den) (max (-1074) f) := by
    rcases le_total f (-1074) with small | large
    · rw [max_eq_left small]
      exact ⟨le_rfl, high.trans_le (zpow_le (by omega)), .inl rfl⟩
    · rw [max_eq_right large]
      exact ⟨large, high, .inr low⟩
  by_cases less : n < 2 ^ 53 * d
  · rw [if_pos less]
    exact settle (decided.mp less) below
  · rw [if_neg less]
    have from' := not_lt.mp (mt decided.mpr less)
    refine settle (above.trans_le (zpow_le (by omega))) ?_
    rwa [show 52 + (e + 1) = 53 + e by ring]

/-! ## Magnitudes -/

/-- The magnitude of `k` units in the last place `e`. -/
def place (e : ℤ) (k : ℕ) : ℕ := if 971 < e then infinity else (e + 1074).toNat * 2 ^ 52 + k

/-- `m` is the magnitude of the double nearest to `q`. -/
def Rounds (q : ℚ) (m : ℕ) : Prop :=
  ∃ e k, LastPlace q e ∧ Nearest (q * 2 ^ (-e)) k ∧ m = place e k

/-- A number in units of its last place. -/
theorem LastPlace.units {q : ℚ} {e : ℤ} (h : LastPlace q e) :
    q * 2 ^ (-e) < 2 ^ 53 ∧ (e = -1074 ∨ 2 ^ 52 ≤ q * 2 ^ (-e)) := by
  have pos : (0 : ℚ) < 2 ^ e := by positivity
  rw [zpow_neg, ← div_eq_mul_inv]
  refine ⟨?_, h.low.imp_right fun low => ?_⟩
  · rw [div_lt_iff₀ pos]
    calc q < 2 ^ (53 + e) := h.high
      _ = 2 ^ 53 * 2 ^ e := zpow_high e
  · rw [le_div_iff₀ pos]
    calc (2 : ℚ) ^ 52 * 2 ^ e = 2 ^ (52 + e) := (zpow_low e).symm
      _ ≤ q := low

/-- The units are as many as fit 53 bits, or the next power of two. -/
theorem units_bounds {q : ℚ} {e : ℤ} {k : ℕ} (h : LastPlace q e) (g : Nearest (q * 2 ^ (-e)) k) :
    k ≤ 2 ^ 53 ∧ (e = -1074 ∨ 2 ^ 52 ≤ k) := by
  obtain ⟨high, low⟩ := h.units
  constructor
  · have top := nearest_natCast (2 ^ 53)
    exact g.mono top (by exact_mod_cast high.le)
  · refine low.imp_right fun low => ?_
    have bottom := nearest_natCast (2 ^ 52)
    exact bottom.mono g (by exact_mod_cast low)

theorem place_le_infinity {q : ℚ} {e : ℤ} {k : ℕ} (h : LastPlace q e)
    (g : Nearest (q * 2 ^ (-e)) k) : place e k ≤ infinity := by
  have := (units_bounds h g).1
  have := h.least
  unfold place infinity
  split <;> omega

theorem Rounds.mono {q p : ℚ} {m n : ℕ} (h : Rounds q m) (g : Rounds p n) (le : q ≤ p) :
    m ≤ n := by
  obtain ⟨e, k, last, nearest, rfl⟩ := h
  obtain ⟨f, l, last', nearest', rfl⟩ := g
  have least := last.least
  rcases (last.mono last' le).lt_or_eq with less | rfl
  · have short := (units_bounds last nearest).1
    have full := (units_bounds last' nearest').2
    have bounded := place_le_infinity last nearest
    unfold place at bounded ⊢
    split
    · rw [if_pos (by omega)]
    · split
      · rwa [if_neg (by assumption)] at bounded
      · omega
  · have units := nearest.mono nearest' (mul_le_mul_of_nonneg_right le (by positivity))
    unfold place
    split
    · exact le_rfl
    · omega

/-- A number rounds to one magnitude. -/
theorem Rounds.unique {q : ℚ} {m n : ℕ} (h : Rounds q m) (g : Rounds q n) : m = n :=
  le_antisymm (h.mono g le_rfl) (g.mono h le_rfl)

theorem Rounds.le_infinity {q : ℚ} {m : ℕ} (h : Rounds q m) : m ≤ infinity := by
  obtain ⟨e, k, last, nearest, rfl⟩ := h
  exact place_le_infinity last nearest

theorem rounds_roundRatio (num : ℕ) {den : ℕ} (pos : 0 < den) :
    Rounds (num / den) (roundRatio num den) := by
  unfold roundRatio
  split
  · rename_i zero
    rw [zero]
    refine ⟨-1074, 0, ⟨le_rfl, ?_, .inl rfl⟩, ?_, rfl⟩
    · rw [Nat.cast_zero, zero_div]; positivity
    · rw [Nat.cast_zero, zero_div, zero_mul]; exact_mod_cast nearest_natCast 0
  · rename_i positive
    have last := lastPlace_spec (Nat.pos_of_ne_zero positive) pos
    have nearest := nearest_roundDiv (scale num den (-lastPlace num den)).1
      (scale_pos num pos (-lastPlace num den))
    rw [scale_eq] at nearest
    exact ⟨_, _, last, nearest, rfl⟩

end MetricLedger.Double
