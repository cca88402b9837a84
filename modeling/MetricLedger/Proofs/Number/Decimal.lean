import MetricLedger.Number.Decimal
import MetricLedger.Proofs.Text.Pieces

/-!
# The forms of decimal text

A text that is read as a number has a mantissa, which is digits with at most one point among them,
and behind it there may be an exponent: a mark, a sign or none, and digits.
-/

namespace MetricLedger.Number.Decimal

open Text.Digits (isDigit)

def Digits (cs : List Char) : Prop := ∀ c ∈ cs, isDigit c = true

/-- Digits, at least one of them, and one point or none, wherever it stands. -/
inductive Mantissa : List Char → Prop
  | whole {ds : List Char} : ds ≠ [] → Digits ds → Mantissa ds
  | parts {whole fraction : List Char} : whole ++ fraction ≠ [] → Digits whole →
      Digits fraction → Mantissa (whole ++ '.' :: fraction)

theorem Digits.count_point {ds : List Char} (h : Digits ds) : ds.count '.' = 0 :=
  List.count_eq_zero.mpr fun mem => absurd (h '.' mem) (by decide)

theorem Mantissa.ne_nil {m : List Char} (h : Mantissa m) : m ≠ [] := by
  cases h with
  | whole nonempty => exact nonempty
  | parts => simp

theorem Mantissa.count_point {m : List Char} (h : Mantissa m) : m.count '.' ≤ 1 := by
  cases h with
  | whole _ digits => simp [digits.count_point]
  | parts _ front back => simp [front.count_point, back.count_point]

theorem Mantissa.isDigit_or {m : List Char} (h : Mantissa m) :
    ∀ c ∈ m, isDigit c = true ∨ c = '.' := by
  cases h with
  | whole _ digits => exact fun c mem => .inl (digits c mem)
  | parts _ front back =>
    exact List.forall_mem_append.mpr ⟨fun c mem => .inl (front c mem),
      List.forall_mem_cons.mpr ⟨.inr rfl, fun c mem => .inl (back c mem)⟩⟩

inductive Exponent : List Char → Prop
  | none : Exponent []
  | some {mark : Char} {sign ds : List Char} : isMark mark = true →
      sign = [] ∨ sign = ['+'] ∨ sign = ['-'] → ds ≠ [] → Digits ds →
      Exponent (mark :: (sign ++ ds))

/-- Digits are asked for, and at least one of them. -/
theorem digits_of_ite {ds : List Char} {x y : α}
    (h : (if ds.isEmpty || !ds.all isDigit then none else some x) = some y) :
    ds ≠ [] ∧ Digits ds := by
  split at h
  · cases h
  · simp_all [Digits]

theorem digits_of_exponent? {cs : List Char} {e : Int} (h : exponent? cs = some e) :
    ∃ sign ds, cs = sign ++ ds ∧ (sign = [] ∨ sign = ['+'] ∨ sign = ['-']) ∧ ds ≠ [] ∧
      Digits ds := by
  unfold exponent? at h
  split at h
  · rename_i ds
    obtain ⟨n, natural, -⟩ := Option.map_eq_some_iff.mp h
    exact ⟨['-'], ds, rfl, by simp, digits_of_ite natural⟩
  · rename_i ds
    exact ⟨['+'], ds, rfl, by simp, digits_of_ite h⟩
  · exact ⟨[], cs, rfl, by simp, digits_of_ite h⟩

/-- A text is a mantissa if its digits are, whatever point was taken out. -/
theorem mantissa_of_cut? {cs : List Char}
    (h : let digits := ((Text.cut? '.' cs).getD (cs, [])).1 ++ ((Text.cut? '.' cs).getD (cs, [])).2
      digits ≠ [] ∧ Digits digits) : Mantissa cs := by
  cases cut : Text.cut? '.' cs with
  | none =>
    simp only [cut, Option.getD_none, List.append_nil] at h
    exact .whole h.1 h.2
  | some parts =>
    obtain ⟨whole, fraction⟩ := parts
    simp only [cut, Option.getD_some] at h
    obtain ⟨front, back⟩ := List.forall_mem_append.mp h.2
    rw [Text.eq_append_of_cut? cut]
    exact .parts h.1 front back

theorem forms_of_unsigned? {cs : List Char} {u : Unsigned} (h : unsigned? cs = some u) :
    ∃ mantissa exponent, cs = mantissa ++ exponent ∧ Mantissa mantissa ∧ Exponent exponent := by
  obtain ⟨whole, -, next⟩ := Text.append_of_takeWhile (rfl : cs.takeWhile (!isMark ·) = _)
  simp only [unsigned?] at h
  generalize cs.takeWhile (!isMark ·) = mantissa at h whole next
  generalize cs.drop mantissa.length = rest at h whole next
  refine ⟨mantissa, rest, whole, ?_⟩
  split at h
  · exact ⟨mantissa_of_cut? (digits_of_ite h), .none⟩
  · rename_i mark rest
    obtain ⟨e, scale, digits⟩ := Option.bind_eq_some_iff.mp h
    obtain ⟨sign, ds, rfl, signs, nonempty, behind⟩ := digits_of_exponent? scale
    have marked : isMark mark = true := by simpa using next mark rfl
    exact ⟨mantissa_of_cut? (digits_of_ite digits), .some marked signs nonempty behind⟩

theorem not_finite_infinity (negative : Bool) :
    (Double.ofMagnitude negative Double.infinity).isFinite = false := by
  cases negative <;> decide

/-- A text that is read as a finite number is one without a sign, which may stand in front. -/
theorem unsigned?_of_parse {cs : List Char} {v : Double} (h : parse cs = .ok v)
    (finite : v.isFinite = true) : ∃ u, unsigned? (cutSign cs).2 = some u := by
  cases read : unsigned? (cutSign cs).2 with
  | some u => exact ⟨u, rfl⟩
  | none =>
    have infinite := not_finite_infinity (cutSign cs).1
    unfold parse at h
    split at h
    · cases h
    · simp only [read] at h
      -- Kept from being computed, the infinities are told from `v` by the one fact about them.
      generalize Double.ofMagnitude (cutSign cs).1 Double.infinity = big at h infinite
      split at h
      · cases h
        rw [infinite] at finite
        cases finite
      · cases h
        rw [infinite] at finite
        cases finite
      · cases h
        exact absurd finite (by decide)
      · cases h

end MetricLedger.Number.Decimal
