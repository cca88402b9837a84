import MetricLedger.Number.Natural

/-!
# Calendar dates

The Gregorian calendar, extended over all years. Days are counted from the first of January 1970.
-/

namespace MetricLedger.Time

open scoped MetricLedger.Natural

structure Date where
  year : Int
  month : Nat
  day : Nat
deriving DecidableEq, Repr

def isLeap (year : Int) : Bool := year % 4 == 0 && (year % 100 != 0 || year % 400 == 0)

def monthLengths (year : Int) : List Nat :=
  [31, if isLeap year then 29 else 28, 31, 30, 31, 30, 31, 31, 30, 31, 30, 31]

/-- The days from the first of January of year 0 to that of `year`. -/
def yearStart (year : Int) : Int :=
  365 * year + (year + 3) / 4 - (year + 99) / 100 + (year + 399) / 400

/-- The first of January 1970, counted from that of year 0. -/
def epoch : Int := 719528

/-- Whether the month and the day exist. -/
def Date.Exists (d : Date) : Prop :=
  1 ≤ d.month ∧ 1 ≤ d.day ∧ d.day ≤ (monthLengths d.year).getD (d.month - 1) 0

instance (d : Date) : Decidable d.Exists := by unfold Date.Exists; infer_instance

def Date.dayNumber (d : Date) : Int :=
  yearStart d.year + ((monthLengths d.year).take (d.month - 1)).sum + (d.day - 1) - epoch

/-- The year that a day, counted from year 0, falls in. -/
def yearOf (n : Int) : Int :=
  let guess := n * 400 / 146097
  if n < yearStart guess then guess - 1 else if yearStart (guess + 1) ≤ n then guess + 1 else guess

/-- The month and the day in it, counted from `month`, of a day of the year. -/
def monthOf (month : Nat) : (lengths : List Nat) → Nat → Nat × Nat
  | [], day => (month, day + 1)
  | length :: lengths, day =>
    if day < length then (month, day + 1) else monthOf (month + 1) lengths (day - length)

def Date.ofDayNumber (n : Int) : Date :=
  let year := yearOf (n + epoch)
  let (month, day) := monthOf 1 (monthLengths year) (n + epoch - yearStart year).toNat
  ⟨year, month, day⟩

theorem yearStart_succ (year : Int) :
    yearStart (year + 1) = yearStart year + if isLeap year then 366 else 365 := by
  have leap : isLeap year = true ↔ year % 4 = 0 ∧ (year % 100 ≠ 0 ∨ year % 400 = 0) := by
    simp [isLeap]
  by_cases h : isLeap year = true
  · rw [if_pos h]; rw [leap] at h; unfold yearStart; omega
  · rw [if_neg h]; rw [leap] at h; unfold yearStart; omega

/-- A day falls in the year that has begun and not yet ended. -/
theorem yearStart_yearOf (n : Int) :
    yearStart (yearOf n) ≤ n ∧ n < yearStart (yearOf n + 1) := by
  unfold yearOf
  generalize hg : n * 400 / 146097 = guess
  simp only
  split
  · rename_i h; refine ⟨?_, by simpa using h⟩
    unfold yearStart at *; omega
  · split
    · rename_i h; refine ⟨h, ?_⟩
      unfold yearStart at *; omega
    · omega

end MetricLedger.Time
