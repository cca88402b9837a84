import Mathlib.Algebra.Group.Nat.Defs
import Mathlib.Data.List.Induction
import MetricLedger.Text.Digits
import MetricLedger.Text.Hex

/-!
# Numbers and their digits

What appending digits does to a number, how many digits a number has, and which digits are written
for the number that they form.
-/

namespace MetricLedger.Text.Digits

theorem le_number (n : Nat) (cs : List Char) : n ≤ number n cs := by
  induction cs generalizing n with
  | nil => exact Nat.le_refl _
  | cons c cs ih => exact Nat.le_trans (by omega) (ih (n * 10 + value c))

theorem number_cons (c : Char) (cs : List Char) : number 0 (c :: cs) = number (value c) cs := by
  simp [number]

theorem number_append (n : Nat) (cs ds : List Char) :
    number n (cs ++ ds) = number (number n cs) ds :=
  List.foldl_append

theorem number_zeros (n k : Nat) : number n (List.replicate k '0') = n * 10 ^ k := by
  induction k generalizing n with
  | zero => simp [number]
  | succ k ih =>
    have next : number n (List.replicate (k + 1) '0') =
        number (n * 10) (List.replicate k '0') := rfl
    rw [next, ih, Nat.pow_succ, Nat.mul_assoc, Nat.mul_comm 10]

theorem isDigit_zeros (n : Nat) : ∀ c ∈ List.replicate n '0', isDigit c = true := by
  intro c mem
  rw [(List.mem_replicate.mp mem).2]
  rfl

theorem isDigit_append {cs ds : List Char} (h : ∀ c ∈ cs, isDigit c = true)
    (g : ∀ c ∈ ds, isDigit c = true) : ∀ c ∈ cs ++ ds, isDigit c = true := by
  intro c mem
  rcases List.mem_append.mp mem with mem | mem
  · exact h c mem
  · exact g c mem

/-- Zeros in front do not count. -/
theorem number_padded (width n : Nat) : number 0 (padded width n) = n := by
  rw [padded, number_append, number_zeros, Nat.zero_mul, number_plain]

theorem isDigit_padded (width n : Nat) : ∀ c ∈ padded width n, isDigit c = true :=
  isDigit_append (isDigit_zeros _) (isDigit_plain n)

theorem padded_ne_nil (width n : Nat) : padded width n ≠ [] :=
  List.append_ne_nil_of_right_ne_nil _ (plain_ne_nil n)

theorem length_plain_pos (n : Nat) : 0 < (plain n).length :=
  List.length_pos_iff.mpr (plain_ne_nil n)

/-- A number has as many digits as it takes. -/
theorem length_plain (n : Nat) :
    n < 10 ^ (plain n).length ∧ (0 < n → 10 ^ ((plain n).length - 1) ≤ n) := by
  induction n using Nat.strongRecOn with
  | ind n ih =>
    unfold plain
    split
    · exact ⟨by simpa using ‹n < 10›, fun pos => by simpa using Nat.succ_le_of_lt pos⟩
    · obtain ⟨high, low⟩ := ih (n / 10) (by omega)
      have low := low (by omega)
      obtain ⟨k, length⟩ : ∃ k, (plain (n / 10)).length = k + 1 :=
        Nat.exists_eq_succ_of_ne_zero (Nat.ne_of_gt (length_plain_pos _))
      rw [length] at high low
      rw [List.length_append, length, List.length_singleton]
      rw [Nat.add_sub_cancel] at low ⊢
      rw [Nat.pow_succ] at high ⊢
      exact ⟨by omega, fun _ => by rw [Nat.pow_succ]; omega⟩

theorem length_plain_le {n k : Nat} (pos : 0 < n) (h : n < 10 ^ k) : (plain n).length ≤ k := by
  have low := (length_plain n).2 pos
  have powers := (Nat.pow_lt_pow_iff_right (by decide : 1 < 10)).mp (Nat.lt_of_le_of_lt low h)
  omega

/-! ## Digits without leading zeros -/

theorem digit_value {c : Char} (h : isDigit c = true) : digit (value c) = c := by
  simp only [isDigit, Bool.and_eq_true, decide_eq_true_eq] at h
  have code : 48 + value c = c.toNat := by unfold value; omega
  rw [digit, code, Char.ofNat_toNat]

theorem value_lt {c : Char} (h : isDigit c = true) : value c < 10 := by
  simp only [isDigit, Bool.and_eq_true, decide_eq_true_eq] at h
  unfold value
  omega

theorem number_pos {cs : List Char} (nonempty : cs ≠ []) (digits : ∀ c ∈ cs, isDigit c = true)
    (leading : cs.head? ≠ some '0') : 0 < number 0 cs := by
  obtain ⟨c, cs, rfl⟩ := List.exists_cons_of_ne_nil nonempty
  have least := le_number (value c) cs
  have kept := digit_value (digits c (List.mem_cons_self ..))
  rw [number_cons]
  rcases Nat.eq_zero_or_pos (value c) with zero | pos
  · rw [zero] at kept
    exact absurd (congrArg some kept.symm) leading
  · exact Nat.lt_of_lt_of_le pos least

theorem plain_of_lt {n : Nat} (h : n < 10) : plain n = [digit n] := by
  rw [plain, if_pos h]

/-- Digits are the ones written for their number, unless a zero leads several of them. -/
theorem plain_number {cs : List Char} (nonempty : cs ≠ []) (digits : ∀ c ∈ cs, isDigit c = true)
    (leading : cs.length = 1 ∨ cs.head? ≠ some '0') : plain (number 0 cs) = cs := by
  induction cs using List.reverseRecOn with
  | nil => exact absurd rfl nonempty
  | append_singleton cs c ih =>
    have last := digits c (by grind)
    have small := value_lt last
    have appended : number 0 (cs ++ [c]) = number 0 cs * 10 + value c := number_append 0 cs [c]
    by_cases single : cs = []
    · subst single
      have alone : number 0 ([] ++ [c]) = value c := by rw [appended]; exact Nat.zero_add _
      rw [alone, plain_of_lt small, digit_value last]
      rfl
    · have some := List.length_pos_iff.mpr single
      have leading : cs.head? ≠ .some '0' := by grind
      have digits : ∀ c ∈ cs, isDigit c = true := by grind
      have pos := number_pos single digits leading
      have front := ih single digits (.inr leading)
      rw [appended, plain, if_neg (by omega), show (number 0 cs * 10 + value c) / 10 = number 0 cs
        by omega, show (number 0 cs * 10 + value c) % 10 = value c by omega, front,
        digit_value last]

theorem plain_leading (n : Nat) : (plain n).length = 1 ∨ (plain n).head? ≠ some '0' := by
  rcases Nat.eq_zero_or_pos n with rfl | pos
  · exact .inl (by rw [plain_of_lt (by decide)]; rfl)
  · exact .inr (head_plain pos)

theorem span_spec (most : Nat) (cs : List Char) :
    cs = (span most cs).1 ++ (span most cs).2 ∧ ∀ c ∈ (span most cs).1, isDigit c = true := by
  fun_induction span most cs <;> grind

/-- All digits at the front of a text are taken where there is no bound on them. -/
theorem span_length {ds rest : List Char} (digits : ∀ c ∈ ds, isDigit c = true)
    (stop : ∀ c ∈ rest.head?, isDigit c = false) :
    span (ds ++ rest).length (ds ++ rest) = (ds, rest) := by
  refine span_append digits (by grind) ?_
  cases rest with
  | nil => exact .inl (by grind)
  | cons c rest => exact .inr ⟨c, rest, rfl, stop c rfl⟩

end MetricLedger.Text.Digits

namespace MetricLedger.Text.Hex

/-! ## Hexadecimal digits -/

theorem value?_lt {c : Char} {n : Nat} (h : value? c = some n) : n < 16 := by
  unfold value? at h
  grind

theorem value?_digitChar {n : Nat} (h : n < 16) : value? n.digitChar = some n := by
  have all : ∀ m : Fin 16, value? (Nat.digitChar m.val) = some m.val := by decide
  exact all ⟨n, h⟩

theorem isDigit_of_number? {high n : Nat} {cs : List Char} (h : number? high cs = some n) :
    ∀ c ∈ cs, isDigit c = true := by
  induction cs generalizing high with
  | nil => intro c mem; cases mem
  | cons c cs ih =>
    obtain ⟨d, value, rest⟩ := Option.bind_eq_some_iff.mp h
    have first : isDigit c = true := by rw [isDigit, value]; rfl
    grind

/-- A number has at most as many bits as its digits hold. -/
theorem number?_lt {high n : Nat} {cs : List Char} (h : number? high cs = some n) :
    n < (high + 1) * 16 ^ cs.length := by
  induction cs generalizing high with
  | nil =>
    obtain rfl := Option.some.inj h
    simp
  | cons c cs ih =>
    obtain ⟨d, value, rest⟩ := Option.bind_eq_some_iff.mp h
    have small := value?_lt value
    calc n
      _ < (high * 16 + d + 1) * 16 ^ cs.length := ih rest
      _ ≤ (high + 1) * 16 * 16 ^ cs.length := Nat.mul_le_mul_right _ (by omega)
      _ = (high + 1) * 16 ^ (c :: cs).length := by
        rw [List.length_cons, Nat.pow_succ, Nat.mul_assoc, Nat.mul_comm 16]

theorem plain_eq (n : Nat) :
    plain n = if n < 16 then [n.digitChar] else plain (n / 16) ++ [(n % 16).digitChar] :=
  Nat.toDigits_eq_if (by decide)

/-- Digits without leading zeros are read as the number they were written for. -/
theorem number?_plain (n : Nat) : number? 0 (plain n) = some n := by
  induction n using Nat.strongRecOn with
  | ind n ih =>
    rw [plain_eq]
    split
    · rename_i small
      simp [number?, value?_digitChar small]
    · have last := value?_digitChar (Nat.mod_lt n (by decide : 16 > 0))
      have back : n / 16 * 16 + n % 16 = n := by omega
      simp [number?_append, ih (n / 16) (by omega), number?, last, back]

theorem plain_ne_nil (n : Nat) : plain n ≠ [] := Nat.toDigits_ne_nil

theorem length_plain_le {n k : Nat} (pos : 0 < k) (h : n < 16 ^ k) : (plain n).length ≤ k :=
  (Nat.length_toDigits_le_iff (by decide) pos).mpr h

end MetricLedger.Text.Hex
