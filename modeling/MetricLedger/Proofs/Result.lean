import Mathlib.Data.List.Forall2

/-!
# Results that may be errors

When steps that may fail succeed, and with what; and which of them is the one that fails.
-/

namespace MetricLedger

/-- The first member of a list that has a fault; those before it are good. -/
def FirstFault (Good : α → Prop) (Fault : α → φ → Prop) (xs : List α) (f : φ) : Prop :=
  ∃ before x after, xs = before ++ x :: after ∧ (∀ y ∈ before, Good y) ∧ Fault x f

theorem firstFault_nil {Good : α → Prop} {Fault : α → φ → Prop} {f : φ} :
    ¬ FirstFault Good Fault [] f := by
  rintro ⟨before, x, after, whole, -⟩
  cases before <;> cases whole

theorem firstFault_cons {Good : α → Prop} {Fault : α → φ → Prop} {x : α} {xs : List α} {f : φ} :
    FirstFault Good Fault (x :: xs) f ↔ Fault x f ∨ Good x ∧ FirstFault Good Fault xs f := by
  constructor
  · rintro ⟨_ | ⟨y, before⟩, z, after, whole, good, fault⟩
    · cases whole
      exact .inl fault
    · cases whole
      obtain ⟨first, others⟩ := List.forall_mem_cons.mp good
      exact .inr ⟨first, before, z, after, rfl, others, fault⟩
  · rintro (fault | ⟨first, before, z, after, rfl, others, fault⟩)
    · exact ⟨[], x, xs, rfl, nofun, fault⟩
    · exact ⟨x :: before, z, after, rfl, List.forall_mem_cons.mpr ⟨first, others⟩, fault⟩

/-- A list has a first fault if and only if not all of its members are good. -/
theorem exists_firstFault_iff {Good : α → Prop} {Fault : α → φ → Prop} {xs : List α}
    (judged : ∀ x, (∃ f, Fault x f) ↔ ¬ Good x) :
    (∃ f, FirstFault Good Fault xs f) ↔ ¬ ∀ x ∈ xs, Good x := by
  induction xs with
  | nil => exact iff_of_false (fun ⟨_, fault⟩ => firstFault_nil fault) (not_not.mpr nofun)
  | cons x xs ih =>
    simp only [firstFault_cons, exists_or, exists_and_left, judged, ih, List.forall_mem_cons]
    by_cases good : Good x <;> simp [good]

/-! ## Steps that succeed -/

theorem exists_ok_iff {x : Except ε α} : (∃ a, x = .ok a) ↔ ¬ ∃ e, x = .error e := by
  cases x with
  | error e => simp
  | ok a => simp

theorem bind_eq_ok_iff {x : Except ε α} {f : α → Except ε β} {b : β} :
    (x >>= f) = .ok b ↔ ∃ a, x = .ok a ∧ f a = .ok b := by
  cases x with
  | error e => simp [bind, Except.bind]
  | ok a => simp [bind, Except.bind]

theorem ok_bind (a : α) (f : α → Except ε β) : (Except.ok a >>= f) = f a := rfl

theorem mapError_eq_ok_iff {f : ε → δ} {x : Except ε α} {a : α} :
    x.mapError f = .ok a ↔ x = .ok a := by
  cases x with
  | error e =>
    constructor
    · intro h; cases h
    · intro h; cases h
  | ok b =>
    constructor
    · intro h; cases h; rfl
    · intro h; cases h; rfl

theorem eq_ok_of_toOption {x : Except ε α} {a : α} (h : x.toOption = some a) : x = .ok a := by
  cases x with
  | error => cases h
  | ok b => cases h; rfl

theorem mapM_eq_ok_iff {f : α → Except ε β} {xs : List α} {ys : List β} :
    xs.mapM f = .ok ys ↔ List.Forall₂ (fun x y => f x = .ok y) xs ys := by
  induction xs generalizing ys with
  | nil =>
    rw [List.mapM_nil, List.forall₂_nil_left_iff]
    constructor
    · intro h; cases h; rfl
    · rintro rfl; rfl
  | cons x xs ih =>
    rw [List.mapM_cons]
    constructor
    · intro h
      cases first : f x with
      | error e => rw [first] at h; cases h
      | ok y =>
        rw [first] at h
        cases others : xs.mapM f with
        | error e => rw [others] at h; cases h
        | ok zs =>
          rw [others] at h
          cases h
          exact .cons first (ih.mp others)
    · rintro (_ | ⟨first, others⟩)
      rw [first, ih.mpr others]
      rfl

theorem exists_mapM_iff {f : α → Except ε β} {xs : List α} :
    (∃ ys, xs.mapM f = .ok ys) ↔ ∀ x ∈ xs, ∃ y, f x = .ok y := by
  induction xs with
  | nil =>
    constructor
    · intro _ x mem; cases mem
    · intro _; exact ⟨[], rfl⟩
  | cons x xs ih =>
    rw [List.forall_mem_cons, ← ih]
    constructor
    · rintro ⟨ys, h⟩
      obtain _ | ⟨first, others⟩ := mapM_eq_ok_iff.mp h
      exact ⟨⟨_, first⟩, _, mapM_eq_ok_iff.mpr others⟩
    · rintro ⟨⟨y, first⟩, ys, others⟩
      exact ⟨_, mapM_eq_ok_iff.mpr (.cons first (mapM_eq_ok_iff.mp others))⟩

/-! ## The step that fails -/

theorem bind_eq_error_iff {x : Except ε α} {f : α → Except ε β} {e : ε} :
    (x >>= f) = .error e ↔ x = .error e ∨ ∃ a, x = .ok a ∧ f a = .error e := by
  cases x with
  | error d => simp [bind, Except.bind]
  | ok a => simp [bind, Except.bind]

/-- Steps over a list fail at the first that does. -/
theorem mapM_eq_error_iff {f : α → Except ε β} {xs : List α} {e : ε} :
    xs.mapM f = .error e ↔
      FirstFault (fun x => ∃ y, f x = .ok y) (fun x e => f x = .error e) xs e := by
  induction xs with
  | nil =>
    rw [List.mapM_nil]
    exact iff_of_false nofun firstFault_nil
  | cons x xs ih =>
    rw [List.mapM_cons, bind_eq_error_iff, firstFault_cons, ← ih]
    refine or_congr_right ⟨?_, ?_⟩
    · rintro ⟨y, first, later⟩
      obtain failed | ⟨ys, -, done⟩ := bind_eq_error_iff.mp later
      · exact ⟨⟨y, first⟩, failed⟩
      · cases done
    · rintro ⟨⟨y, first⟩, failed⟩
      exact ⟨y, first, bind_eq_error_iff.mpr (.inl failed)⟩

end MetricLedger
