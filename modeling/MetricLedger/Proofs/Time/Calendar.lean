import Mathlib.Algebra.GroupWithZero.Nat
import MetricLedger.Time.Calendar

/-!
# Days and their dates

Every day has a date, which exists and is the date of that day.
-/

namespace MetricLedger.Time

theorem yearStart_le {year later : Int} (h : year ≤ later) : yearStart year ≤ yearStart later := by
  unfold yearStart
  omega

/-- Years are told apart by the days that they begin with. -/
theorem le_yearOf_iff {year n : Int} : year ≤ yearOf n ↔ yearStart year ≤ n := by
  obtain ⟨begun, within⟩ := yearStart_yearOf n
  constructor
  · intro h
    exact Int.le_trans (yearStart_le h) begun
  · intro h
    refine Int.not_lt.mp fun later => ?_
    have next := yearStart_le (show yearOf n + 1 ≤ year by omega)
    omega

/-- The month of a day is the one that has begun and not yet ended. -/
theorem monthOf_eq (month : Nat) {lengths : List Nat} {day : Nat} (h : day < lengths.sum) :
    ∃ i < lengths.length, (lengths.take i).sum ≤ day ∧
      day < (lengths.take i).sum + lengths.getD i 0 ∧
      monthOf month lengths day = (month + i, day - (lengths.take i).sum + 1) := by
  induction lengths generalizing month day with
  | nil => exact absurd h (Nat.not_lt_zero _)
  | cons length lengths ih =>
    by_cases first : day < length
    · refine ⟨0, Nat.succ_pos _, Nat.zero_le _, by simpa using first, ?_⟩
      rw [monthOf, if_pos first]
      rfl
    · rw [List.sum_cons] at h
      obtain ⟨i, inside, begun, open', eq⟩ := ih (month + 1) (show day - length < _ by omega)
      refine ⟨i + 1, Nat.succ_lt_succ inside, ?_, ?_, ?_⟩
      · rw [List.take_succ_cons, List.sum_cons]; omega
      · rw [List.take_succ_cons, List.sum_cons, List.getD_cons_succ]; omega
      · rw [monthOf, if_neg first, eq, List.take_succ_cons, List.sum_cons]
        congr 1 <;> omega

theorem sum_monthLengths (year : Int) :
    (monthLengths year).sum = if isLeap year then 366 else 365 := by
  unfold monthLengths
  split <;> rfl

theorem monthLengths_le (year : Int) (i : Nat) : (monthLengths year).getD i 0 ≤ 31 := by
  have all : ∀ n ∈ monthLengths year, n ≤ 31 := by
    unfold monthLengths
    split <;> decide
  rw [List.getD_eq_getElem?_getD]
  cases found : (monthLengths year)[i]? with
  | none => exact Nat.zero_le _
  | some n => exact all n (List.mem_of_getElem? found)

/-- A day is some day of some month of its year. -/
theorem ofDayNumber_eq (n : Int) : ∃ year i day, i < 12 ∧ day < (monthLengths year).getD i 0 ∧
    Date.ofDayNumber n = ⟨year, 1 + i, day + 1⟩ ∧
    yearStart year + ((monthLengths year).take i).sum + day = n + epoch := by
  obtain ⟨begun, within⟩ := yearStart_yearOf (n + epoch)
  rw [yearStart_succ] at within
  have short : (n + epoch - yearStart (yearOf (n + epoch))).toNat <
      (monthLengths (yearOf (n + epoch))).sum := by
    rw [sum_monthLengths]
    by_cases leap : isLeap (yearOf (n + epoch)) = true
    · rw [if_pos leap] at within ⊢; omega
    · rw [if_neg leap] at within ⊢; omega
  obtain ⟨i, inside, before, after, eq⟩ := monthOf_eq 1 short
  refine ⟨yearOf (n + epoch), i, (n + epoch - yearStart (yearOf (n + epoch))).toNat -
    ((monthLengths (yearOf (n + epoch))).take i).sum, inside, ?_, ?_, ?_⟩
  · omega
  · simp only [Date.ofDayNumber, eq]
  · omega

theorem exists_ofDayNumber (n : Int) : (Date.ofDayNumber n).Exists ∧
    (Date.ofDayNumber n).month ≤ 12 ∧ (Date.ofDayNumber n).day ≤ 31 := by
  obtain ⟨year, i, day, month, inside, eq, -⟩ := ofDayNumber_eq n
  have := monthLengths_le year i
  rw [eq]
  refine ⟨⟨Nat.le_add_right 1 i, Nat.le_add_left 1 day, ?_⟩, by dsimp only; omega,
    by dsimp only; omega⟩
  rw [Nat.add_sub_cancel_left]
  exact inside

theorem dayNumber_ofDayNumber (n : Int) : (Date.ofDayNumber n).dayNumber = n := by
  obtain ⟨year, i, day, -, -, eq, place⟩ := ofDayNumber_eq n
  rw [eq, Date.dayNumber]
  dsimp only
  rw [Nat.add_sub_cancel_left]
  omega

end MetricLedger.Time
