import MetricLedger.Cli.CommandLine
import MetricLedger.Proofs.Number.Decimal

/-!
# Negative numbers on a command line

A dash stands in front of a named argument, and in front of a negative number. Of the numbers, a
command line takes for one only those that it can tell by their characters alone.
-/

namespace MetricLedger.Cli.Reading

open Number.Decimal (Digits Mantissa Exponent isMark)
open Text.Digits (isDigit)

/-- The number begins with a digit, and its exponent has a small mark and no sign. -/
def Simple (cs : List Char) : Prop :=
  cs.head? ≠ some '.' ∧ ∀ c ∈ cs, c ∉ ['E', '+', '-']

/-- The characters of mantissas. -/
def isPart (c : Char) : Bool := isDigit c || c == '.'

theorem not_mem_of_isPart {c : Char} (h : isPart c = true) : c ∉ ['E', '+', '-'] := by
  intro mem
  simp only [List.mem_cons, List.not_mem_nil, or_false] at mem
  rcases mem with rfl | rfl | rfl <;> exact absurd h (by decide)

theorem isPart_of_isDigit {c : Char} (h : isDigit c = true) : isPart c = true := by
  simp [isPart, h]

theorem isPart_mantissa {m : List Char} (h : Mantissa m) : ∀ c ∈ m, isPart c = true := by
  intro c mem
  rcases h.isDigit_or c mem with digit | rfl
  · exact isPart_of_isDigit digit
  · decide

theorem stops_exponent {x : List Char} (h : Exponent x) : ∀ c ∈ x.head?, isPart c = false := by
  cases h with
  | none => simp
  | some mark =>
    rintro c ⟨⟩
    simp only [isMark, Bool.or_eq_true, beq_iff_eq] at mark
    rcases mark with rfl | rfl <;> decide

/-- Whether a mantissa is the whole number, or a scale stands behind it. -/
def isScale : List Char → Bool
  | [] => true
  | 'e' :: ds => !ds.isEmpty && ds.all isDigit
  | _ => false

theorem isScale_iff {x : List Char} (h : Exponent x) :
    isScale x = true ↔ ∀ c ∈ x, c ∉ ['E', '+', '-'] := by
  cases h with
  | none => simp [isScale]
  | @some mark sign ds marks signs nonempty digits =>
    simp only [isMark, Bool.or_eq_true, beq_iff_eq] at marks
    rcases marks with rfl | rfl
    · rcases signs with rfl | rfl | rfl
      · have plain : ∀ c ∈ 'e' :: ds, c ∉ ['E', '+', '-'] := List.forall_mem_cons.mpr
          ⟨by decide, fun c mem => not_mem_of_isPart (isPart_of_isDigit (digits c mem))⟩
        have all : ds.all isDigit = true := List.all_eq_true.mpr digits
        simp only [isScale, List.nil_append, all, Bool.and_true]
        exact iff_of_true (by simpa using nonempty) plain
      · have signed : isDigit '+' = false := by decide
        exact iff_of_false (by simp [isScale, signed]) fun plain => plain '+' (by simp) (by simp)
      · have signed : isDigit '-' = false := by decide
        exact iff_of_false (by simp [isScale, signed]) fun plain => plain '-' (by simp) (by simp)
    · exact iff_of_false (by simp [isScale]) fun plain => plain 'E' (by simp) (by simp)

/-- A text that has the form of a number is told for one by its first character and its scale. -/
theorem isNumber_append {m x : List Char} (h : Mantissa m) (g : Exponent x) :
    isNumber (m ++ x) = (m.head? != some '.' && isScale x) := by
  have front : (m ++ x).takeWhile isPart = m :=
    Text.takeWhile_append_stop (isPart_mantissa h) (stops_exponent g)
  have cut : (m ++ x).takeWhile (fun c => isDigit c || c == '.') = m := front
  have point : (m.count '.' ≤ 1) = True := eq_true h.count_point
  have nonempty : m.isEmpty = false := by simpa using h.ne_nil
  simp only [isNumber, cut, List.drop_left, point, decide_true, Bool.true_and, nonempty,
    Bool.not_false, Bool.and_true]
  split
  · rw [isScale, Bool.and_true]
  · rw [isScale, Bool.and_assoc]
  · rename_i filled other
    rw [isScale, Bool.and_false]
    · exact filled
    · exact other

theorem isNumber_iff {m x : List Char} (h : Mantissa m) (g : Exponent x) :
    isNumber (m ++ x) = true ↔ Simple (m ++ x) := by
  have head : (m ++ x).head? = m.head? := by
    obtain ⟨c, cs, rfl⟩ := List.exists_cons_of_ne_nil h.ne_nil
    rfl
  have front : ∀ c ∈ m, c ∉ ['E', '+', '-'] := fun c mem =>
    not_mem_of_isPart (isPart_mantissa h c mem)
  rw [isNumber_append h g, Simple, head, List.forall_mem_append, Bool.and_eq_true,
    bne_iff_ne, isScale_iff g]
  exact and_congr_right fun _ => ⟨fun back => ⟨front, back⟩, And.right⟩

end MetricLedger.Cli.Reading
