/-!
# Pieces of a text

A text with separators is a list of pieces, one more than there are separators. It is split at all
of them, or cut at the first.
-/

namespace MetricLedger.Text

/-- The pieces between the separators; the pieces hold none. -/
def split [BEq α] (sep : α) : List α → List (List α)
  | [] => [[]]
  | x :: xs =>
    if x == sep then [] :: split sep xs
    else match split sep xs with
      | [] => [[x]]
      | piece :: pieces => (x :: piece) :: pieces

/-- What stands before and after the first separator. -/
def cut? [BEq α] (sep : α) : List α → Option (List α × List α)
  | [] => none
  | x :: xs => if x == sep then some ([], xs) else (cut? sep xs).map fun (a, b) => (x :: a, b)

/-- Whether a text begins with another one, and what follows it. -/
def after? [BEq α] : List α → List α → Option (List α)
  | [], xs => some xs
  | _ :: _, [] => none
  | p :: ps, x :: xs => if p == x then after? ps xs else none

section
variable [BEq α] [LawfulBEq α] {sep : α} {xs : List α}

theorem beq_eq_false_of_not_mem {x : α} (h : sep ∉ x :: xs) : (x == sep) = false ∧ sep ∉ xs := by
  rw [List.mem_cons, not_or] at h
  exact ⟨beq_eq_false_iff_ne.mpr (Ne.symm h.1), h.2⟩

theorem split_of_not_mem (h : sep ∉ xs) : split sep xs = [xs] := by
  induction xs with
  | nil => rfl
  | cons x xs ih =>
    obtain ⟨other, rest⟩ := beq_eq_false_of_not_mem h
    simp [split, other, ih rest]

theorem split_append (h : sep ∉ xs) (ys : List α) :
    split sep (xs ++ sep :: ys) = xs :: split sep ys := by
  induction xs with
  | nil => simp [split]
  | cons x xs ih =>
    obtain ⟨other, rest⟩ := beq_eq_false_of_not_mem h
    simp [split, other, ih rest]

theorem cut?_of_not_mem (h : sep ∉ xs) : cut? sep xs = none := by
  induction xs with
  | nil => rfl
  | cons x xs ih =>
    obtain ⟨other, rest⟩ := beq_eq_false_of_not_mem h
    simp [cut?, other, ih rest]

theorem cut?_append (h : sep ∉ xs) (ys : List α) : cut? sep (xs ++ sep :: ys) = some (xs, ys) := by
  induction xs with
  | nil => simp [cut?]
  | cons x xs ih =>
    obtain ⟨other, rest⟩ := beq_eq_false_of_not_mem h
    simp [cut?, other, ih rest]

end

end MetricLedger.Text
