import MetricLedger.Number.Natural

/-!
# Decimal digits

Numbers are written with the digits `0` to `9`, the leading one first.
-/

namespace MetricLedger.Text.Digits

open scoped MetricLedger.Natural

/-- The digit of a number below ten. -/
def digit (n : Nat) : Char := Char.ofNat (48 + n)

def isDigit (c : Char) : Bool := 48 ≤ c.toNat && c.toNat ≤ 57

def value (c : Char) : Nat := c.toNat - 48

/-- The digits of a number, without leading zeros. -/
def plain (n : Nat) : List Char :=
  if n < 10 then [digit n] else plain (n / 10) ++ [digit (n % 10)]

/-- The lowest `width` digits of a number. -/
def fixed : (width : Nat) → Nat → List Char
  | 0, _ => []
  | width + 1, n => fixed width (n / 10) ++ [digit (n % 10)]

/-- All digits of a number, zeros filling up to `width`. -/
def padded (width n : Nat) : List Char :=
  List.replicate (width - (plain n).length) '0' ++ plain n

/-- The number whose digits are those of `high` followed by the given ones. -/
def number (high : Nat) (cs : List Char) : Nat := cs.foldl (fun n c => n * 10 + value c) high

/-- The leading digits of a text, at most `most` of them, and the rest. -/
def span : (most : Nat) → List Char → List Char × List Char
  | 0, cs => ([], cs)
  | _ + 1, [] => ([], [])
  | most + 1, c :: cs =>
    if isDigit c then
      let (ds, rest) := span most cs
      (c :: ds, rest)
    else ([], c :: cs)

theorem value_digit {n : Nat} (h : n < 10) : value (digit n) = n := by
  have all : ∀ m : Fin 10, value (digit m) = m.val := by decide
  exact all ⟨n, h⟩

theorem isDigit_digit {n : Nat} (h : n < 10) : isDigit (digit n) = true := by
  have all : ∀ m : Fin 10, isDigit (digit m) = true := by decide
  exact all ⟨n, h⟩

@[simp] theorem length_fixed (width n : Nat) : (fixed width n).length = width := by
  induction width generalizing n with
  | zero => rfl
  | succ width ih => simp [fixed, ih]

theorem number_fixed (width n : Nat) : number 0 (fixed width n) = n % 10 ^ width := by
  induction width generalizing n with
  | zero => simp [fixed, number, Nat.mod_one]
  | succ width ih =>
    have step : n % 10 ^ (width + 1) = n / 10 % 10 ^ width * 10 + n % 10 := by
      rw [Nat.pow_succ, Nat.mul_comm (10 ^ width) 10, Nat.mod_mul]; omega
    have := ih (n / 10)
    simp only [number] at this
    simp [fixed, number, List.foldl_append, this, value_digit (Nat.mod_lt n (by decide : 10 > 0)),
      step]

/-- Digits without leading zeros read back as the number they were written for. -/
theorem number_plain (n : Nat) : number 0 (plain n) = n := by
  induction n using Nat.strongRecOn with
  | ind n ih =>
    unfold plain
    split
    · simp [number, value_digit (by assumption : n < 10)]
    · have := ih (n / 10) (by omega)
      simp only [number] at this
      simp [number, List.foldl_append, this, value_digit (Nat.mod_lt n (by decide : 10 > 0))]
      omega

theorem plain_ne_nil (n : Nat) : plain n ≠ [] := by
  unfold plain
  split
  · exact List.cons_ne_nil _ _
  · exact List.append_ne_nil_of_right_ne_nil _ (List.cons_ne_nil _ _)

theorem isDigit_plain (n : Nat) : ∀ c ∈ plain n, isDigit c = true := by
  induction n using Nat.strongRecOn with
  | ind n ih =>
    unfold plain
    split
    · intro c mem
      rw [List.mem_singleton.mp mem]
      exact isDigit_digit (by assumption)
    · intro c mem
      rcases List.mem_append.mp mem with mem | mem
      · exact ih (n / 10) (by omega) c mem
      · rw [List.mem_singleton.mp mem]
        exact isDigit_digit (Nat.mod_lt n (by decide))

theorem digit_ne_zero {n : Nat} (low : 0 < n) (high : n < 10) : digit n ≠ '0' := by
  have all : ∀ m : Fin 10, 0 < m.val → digit m ≠ '0' := by decide
  exact all ⟨n, high⟩ low

/-- The leading digit of a positive number is not zero. -/
theorem head_plain {n : Nat} (h : 0 < n) : (plain n).head? ≠ some '0' := by
  induction n using Nat.strongRecOn with
  | ind n ih =>
    unfold plain
    split
    · intro zero
      exact digit_ne_zero h (by assumption) (Option.some.inj zero)
    · have front := ih (n / 10) (by omega) (by omega)
      obtain ⟨c, cs, digits⟩ := List.exists_cons_of_ne_nil (plain_ne_nil (n / 10))
      rw [digits] at front ⊢
      exact front

theorem isDigit_fixed (width n : Nat) : ∀ c ∈ fixed width n, isDigit c = true := by
  induction width generalizing n with
  | zero => intro c mem; cases mem
  | succ width ih =>
    intro c mem
    rcases List.mem_append.mp mem with mem | mem
    · exact ih _ c mem
    · rw [List.mem_singleton.mp mem]
      exact isDigit_digit (Nat.mod_lt n (by decide))

/-- A run of digits is taken as a whole if as many may be taken, or something else ends it. -/
theorem span_append {ds rest : List Char} (h : ∀ c ∈ ds, isDigit c = true) {most : Nat}
    (fits : ds.length ≤ most)
    (ends : ds.length = most ∨ ∃ c cs, rest = c :: cs ∧ isDigit c = false) :
    span most (ds ++ rest) = (ds, rest) := by
  induction ds generalizing most with
  | nil =>
    cases most with
    | zero => rfl
    | succ most =>
      obtain ⟨c, cs, rfl, stop⟩ := ends.resolve_left (by simp)
      rw [List.nil_append, span, if_neg (by simp [stop])]
  | cons d ds ih =>
    cases most with
    | zero => exact absurd fits (by simp)
    | succ most =>
      have others := ih (fun c mem => h c (List.mem_cons_of_mem _ mem))
        (Nat.le_of_succ_le_succ fits) (ends.imp_left Nat.succ.inj)
      rw [List.cons_append, span, if_pos (h d (List.mem_cons_self ..)), others]

theorem span_fixed (width n : Nat) (rest : List Char) :
    span width (fixed width n ++ rest) = (fixed width n, rest) :=
  span_append (isDigit_fixed width n) (Nat.le_of_eq (length_fixed ..))
    (.inl (length_fixed ..))

theorem number_fixed_of_lt {width n : Nat} (h : n < 10 ^ width) : number 0 (fixed width n) = n := by
  rw [number_fixed, Nat.mod_eq_of_lt h]

theorem fixed_cons (width n : Nat) :
    ∃ c cs, fixed (width + 1) n = c :: cs ∧ isDigit c = true := by
  have length := length_fixed (width + 1) n
  obtain ⟨c, cs, eq⟩ := List.exists_cons_of_length_eq_add_one length
  refine ⟨c, cs, eq, isDigit_fixed (width + 1) n c ?_⟩
  rw [eq]
  exact List.mem_cons_self ..

end MetricLedger.Text.Digits
