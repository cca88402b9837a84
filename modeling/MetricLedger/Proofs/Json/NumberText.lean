import MetricLedger.Json.Number
import MetricLedger.Proofs.Json.Grammar
import MetricLedger.Proofs.Text.Digits
import MetricLedger.Proofs.Text.Utf8

/-!
# The text of numbers

Whatever the digits of a finite double and the place of its point, its text is a number of the
grammar.
-/

namespace MetricLedger.Json

open Text.Utf8 (encode)
open Text.Digits (isDigit_zeros isDigit_append)

/-! ## Digits -/

theorem isDigit_ascii {c : Char} (h : Text.Digits.isDigit c = true) :
    isDigit (ascii c) = true ∧ c.toNat < 0x80 := by
  simp only [Text.Digits.isDigit, Bool.and_eq_true, decide_eq_true_eq] at h
  have byte := Text.Utf8.toNat_toUInt8 (show c.toNat < 256 by omega)
  refine ⟨?_, by omega⟩
  simp only [isDigit, Bool.and_eq_true, decide_eq_true_eq, UInt8.le_iff_toNat_le, byte]
  exact h

theorem encode_digits {cs : List Char} (digits : ∀ c ∈ cs, Text.Digits.isDigit c = true) :
    encode cs = cs.map fun c => ascii c :=
  Text.Utf8.encode_ascii fun c mem => (isDigit_ascii (digits c mem)).2

theorem digits_encode {cs : List Char} (nonempty : cs ≠ [])
    (digits : ∀ c ∈ cs, Text.Digits.isDigit c = true) : Digits (encode cs) := by
  rw [encode_digits digits]
  refine ⟨fun nil => nonempty (List.map_eq_nil_iff.mp nil), ?_⟩
  intro b mem
  obtain ⟨c, among, rfl⟩ := List.mem_map.mp mem
  exact (isDigit_ascii (digits c among)).1

theorem ascii_ne {c d : Char} (h : c.toNat < 0x80) (g : d.toNat < 0x80) (ne : c ≠ d) :
    ascii c ≠ ascii d := by
  intro same
  have toNat := congrArg UInt8.toNat same
  rw [Text.Utf8.toNat_toUInt8 (by omega), Text.Utf8.toNat_toUInt8 (by omega)] at toNat
  exact ne (Char.toNat_inj.mp toNat)

theorem whole_encode {cs : List Char} (nonempty : cs ≠ [])
    (digits : ∀ c ∈ cs, Text.Digits.isDigit c = true) (head : cs.head? ≠ some '0') :
    Whole (encode cs) := by
  have bytes := digits_encode nonempty digits
  obtain ⟨c, cs, rfl⟩ := List.exists_cons_of_ne_nil nonempty
  rw [encode_digits digits, List.map_cons] at bytes ⊢
  have small := (isDigit_ascii (digits c (List.mem_cons_self ..))).2
  refine .digits (ascii_ne small (by decide) ?_) bytes
  rintro rfl
  exact head rfl

/-- A natural number is written as a number of the grammar. -/
theorem literal_plain (n : Nat) : Literal (encode (Text.Digits.plain n)) := by
  have whole : Whole (encode (Text.Digits.plain n)) := by
    cases n with
    | zero =>
      rw [Text.Digits.plain, if_pos (by decide)]
      exact .zero
    | succ n =>
      exact whole_encode (Text.Digits.plain_ne_nil _) (Text.Digits.isDigit_plain _)
        (Text.Digits.head_plain (Nat.succ_pos n))
  have literal := Literal.positive whole .none .none
  rwa [List.append_nil, List.append_nil] at literal

/-! ## Notations -/

/-- A number without a sign. -/
def Unsigned (cs : List Char) : Prop :=
  ∃ w f e, encode cs = w ++ (f ++ e) ∧ Whole w ∧ Fraction f ∧ Exponent e

/-- Digits of a positive number. -/
def Leading (cs : List Char) : Prop :=
  cs ≠ [] ∧ (∀ c ∈ cs, Text.Digits.isDigit c = true) ∧ cs.head? ≠ some '0'

theorem leading_plain {n : Nat} (h : 0 < n) : Leading (Text.Digits.plain n) :=
  ⟨Text.Digits.plain_ne_nil n, Text.Digits.isDigit_plain n, Text.Digits.head_plain h⟩

theorem positional_unsigned {digits : List Char} (h : Leading digits) (n : Int) :
    Unsigned (positional digits n) := by
  obtain ⟨nonempty, all, head⟩ := h
  obtain ⟨d, rest, rfl⟩ := List.exists_cons_of_ne_nil nonempty
  unfold positional
  split
  · refine ⟨[ascii '0'], ascii '.' :: encode (List.replicate (-n).toNat '0' ++ d :: rest), [], ?_,
      .zero, .some (digits_encode ?_ (isDigit_append (isDigit_zeros _) all)), .none⟩
    · rw [List.append_nil]; rfl
    · exact List.append_ne_nil_of_right_ne_nil _ nonempty
  · split
    · refine ⟨encode (d :: rest ++ List.replicate (n.toNat - (d :: rest).length) '0'),
        ascii '.' :: encode ['0'], [], ?_, whole_encode (List.cons_ne_nil _ _)
          (isDigit_append all (isDigit_zeros _)) head,
        .some (digits_encode (List.cons_ne_nil _ _) (isDigit_zeros 1)), .none⟩
      rw [List.append_nil, Text.Utf8.encode_append]; rfl
    · obtain ⟨k, places⟩ : ∃ k, n.toNat = k + 1 := ⟨n.toNat - 1, by omega⟩
      have short : k + 1 < (d :: rest).length := by omega
      rw [places]
      have whole := whole_encode (List.cons_ne_nil d (rest.take k))
        (fun c mem => all c (List.mem_of_mem_take (i := k + 1) mem)) head
      refine ⟨encode ((d :: rest).take (k + 1)), ascii '.' :: encode ((d :: rest).drop (k + 1)), [],
        ?_, whole, .some (digits_encode ?_ fun c mem => all c (List.mem_of_mem_drop mem)), .none⟩
      · rw [List.append_nil, Text.Utf8.encode_append]; rfl
      · intro nil
        have := List.drop_eq_nil_iff.mp nil
        omega

theorem scientific_unsigned {digits : List Char} (h : Leading digits) (exponent : Int) :
    Unsigned (scientific digits exponent) := by
  obtain ⟨nonempty, all, head⟩ := h
  obtain ⟨d, rest, rfl⟩ := List.exists_cons_of_ne_nil nonempty
  have first : Whole (encode [d]) :=
    whole_encode (List.cons_ne_nil _ _) (fun c mem => all c (List.mem_singleton.mp mem ▸
      List.mem_cons_self ..)) head
  have power : Exponent (encode ('e' :: (if exponent < 0 then '-' else '+') ::
      Text.Digits.plain exponent.natAbs)) := by
    have digits := digits_encode (Text.Digits.plain_ne_nil exponent.natAbs)
      (Text.Digits.isDigit_plain _)
    split
    · exact @Exponent.some _ [ascii '-'] _ (.inl rfl) (.inr (.inr rfl)) digits
    · exact @Exponent.some _ [ascii '+'] _ (.inl rfl) (.inr (.inl rfl)) digits
  cases rest with
  | nil => exact ⟨_, [], _, Text.Utf8.encode_append .., first, .none, power⟩
  | cons e rest =>
    refine ⟨encode [d], ascii '.' :: encode (e :: rest), _, ?_, first, .some (digits_encode
      (List.cons_ne_nil _ _) fun c mem => all c (List.mem_cons_of_mem _ mem)), power⟩
    have parts : scientific (d :: e :: rest) exponent = [d] ++ ('.' :: e :: rest ++ ('e' ::
        (if exponent < 0 then '-' else '+') :: Text.Digits.plain exponent.natAbs)) := rfl
    rw [parts, Text.Utf8.encode_append, Text.Utf8.encode_append]
    rfl

/-! ## The digits of a double -/

theorem le_roundDiv (num den : Nat) : num / den ≤ Double.roundDiv num den := by
  unfold Double.roundDiv
  dsimp only
  split
  · exact Nat.le_succ _
  · exact Nat.le_refl _

theorem onGrid?_pos {b : Double.Basin} {place : Int} {d : Decimal}
    (h : b.onGrid? place = some d) : 0 < d.digits := by
  unfold Double.Basin.onGrid? at h
  generalize (if 0 ≤ place then (10 ^ place.toNat, 1) else (1, 10 ^ (-place).toNat)) = scale at h
  obtain ⟨unit, per⟩ := scale
  dsimp only at h
  split at h
  · rename_i both
    cases h
    have down : 0 < b.value * per / (b.den * unit) := by
      simp only [Bool.and_eq_true, decide_eq_true_eq] at both
      exact both.1.1
    exact Nat.lt_of_lt_of_le down (le_roundDiv _ _)
  · split at h
    · rename_i down
      cases h
      simp only [Bool.and_eq_true, decide_eq_true_eq] at down
      exact down.1
    · split at h
      · cases h
        exact Nat.succ_pos _
      · cases h

/-- Only zero is written with no digit but zero. -/
theorem shortest_digits (x : Double) : x.shortest = ⟨0, 0⟩ ∨ 0 < x.shortest.digits := by
  unfold Double.shortest
  split
  · exact .inl rfl
  · cases found : x.basin.grids.findSome? x.basin.onGrid? with
    | none => exact .inl rfl
    | some d =>
      obtain ⟨place, -, onGrid⟩ := List.exists_of_findSome?_eq_some found
      exact .inr (onGrid?_pos onGrid)

theorem magnitudeText_unsigned (x : Double) : Unsigned (magnitudeText x) := by
  unfold magnitudeText
  rcases shortest_digits x with zero | pos
  · rw [zero]
    refine ⟨[ascii '0'], ascii '.' :: encode ['0'], [], ?_, .zero,
      .some (digits_encode (List.cons_ne_nil _ _) (isDigit_zeros 1)), .none⟩
    have digit : (⟨0, 0⟩ : Decimal).text = ['0'] := by
      rw [Decimal.text, Text.Digits.plain, if_pos (by decide)]
      rfl
    dsimp only
    rw [digit]
    rfl
  · dsimp only
    split
    · exact positional_unsigned (leading_plain pos) _
    · exact scientific_unsigned (leading_plain pos) _

theorem finiteText_literal (x : Double) : Literal (Bytes.ofString (finiteText x)) := by
  obtain ⟨w, f, e, bytes, whole, fraction, exponent⟩ := magnitudeText_unsigned x
  rw [Bytes.ofString, finiteText, String.toList_ofList, Text.Utf8.encode_append, bytes]
  split
  · exact @Literal.negative w f e whole fraction exponent
  · exact @Literal.positive w f e whole fraction exponent

end MetricLedger.Json
