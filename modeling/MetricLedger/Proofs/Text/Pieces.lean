import Mathlib.Data.List.TakeWhile
import MetricLedger.Text.Pieces

/-!
# Where texts are cut

What stands in front of a separator, and how far a text goes on with characters of one kind.
-/

namespace MetricLedger.Text

theorem after?_append [BEq α] [LawfulBEq α] (front rest : List α) :
    after? front (front ++ rest) = some rest := by
  induction front with
  | nil => rfl
  | cons x front ih => simp [after?, ih]

theorem eq_append_of_after? [BEq α] [LawfulBEq α] {front s rest : List α}
    (h : after? front s = some rest) : s = front ++ rest := by
  induction front generalizing s with
  | nil => exact Option.some.inj h
  | cons x front ih =>
    cases s with
    | nil => cases h
    | cons y s =>
      rw [after?] at h
      split at h
      · next same => rw [ih h, eq_of_beq same, List.cons_append]
      · cases h

/-- What is cut off in front of a separator is what holds none. -/
theorem takeWhile_eq_cut? [BEq α] (sep : α) (s : List α) :
    s.takeWhile (· != sep) = ((cut? sep s).map Prod.fst).getD s := by
  induction s with
  | nil => rfl
  | cons x s ih =>
    rw [cut?, List.takeWhile_cons, ih, bne]
    cases x == sep with
    | true => rfl
    | false => cases cut? sep s <;> rfl

theorem takeWhile_append_stop {p : α → Bool} {front rest : List α}
    (held : ∀ x ∈ front, p x = true) (stop : ∀ x ∈ rest.head?, p x = false) :
    (front ++ rest).takeWhile p = front := by
  rw [List.takeWhile_append_of_pos held]
  cases rest with
  | nil => simp
  | cons x rest => simp [stop x rfl]

/-- A mark of another kind ends a run of characters. -/
theorem stop_cons {p : α → Bool} {mark : α} (h : p mark = false) (rest : List α) :
    ∀ x ∈ (mark :: rest).head?, p x = false := by
  rintro x ⟨⟩
  exact h

theorem append_of_takeWhile {p : α → Bool} {s front : List α} (h : s.takeWhile p = front) :
    s = front ++ s.drop front.length ∧ (∀ x ∈ front, p x = true) ∧
      ∀ x ∈ (s.drop front.length).head?, p x = false := by
  subst h
  have dropped : s.drop (s.takeWhile p).length = s.dropWhile p := by
    calc s.drop (s.takeWhile p).length
      _ = (s.takeWhile p ++ s.dropWhile p).drop (s.takeWhile p).length := by
          rw [List.takeWhile_append_dropWhile]
      _ = s.dropWhile p := List.drop_left
  rw [dropped]
  refine ⟨List.takeWhile_append_dropWhile.symm, fun x mem => List.mem_takeWhile_imp mem,
    fun x first => ?_⟩
  have stop := List.head?_dropWhile_not p s
  rw [first] at stop
  exact stop

/-- The first separator stands where a text is cut. -/
theorem eq_append_of_cut? [BEq α] [LawfulBEq α] {sep : α} {s front rest : List α}
    (h : cut? sep s = some (front, rest)) : s = front ++ sep :: rest := by
  induction s generalizing front with
  | nil => cases h
  | cons x s ih =>
    rw [cut?] at h
    split at h
    · next same =>
      cases h
      rw [eq_of_beq same, List.nil_append]
    · obtain ⟨⟨before, after⟩, cut, same⟩ := Option.map_eq_some_iff.mp h
      cases same
      rw [ih cut, List.cons_append]

/-- A text is cut at its last separator in one way only. -/
theorem append_sep_inj {sep : α} {xs ys ds es : List α} (h : xs ++ sep :: ds = ys ++ sep :: es)
    (first : sep ∉ ds) (second : sep ∉ es) : xs = ys ∧ ds = es := by
  rcases List.append_eq_append_iff.mp h with ⟨between, front, back⟩ | ⟨between, front, back⟩
  · cases between <;> grind
  · cases between <;> grind

end MetricLedger.Text
