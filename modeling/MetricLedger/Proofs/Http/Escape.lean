import MetricLedger.Http.Target
import MetricLedger.Proofs.Http.Form
import MetricLedger.Proofs.Text.Utf8

/-!
# Escaped values in targets

A value may stand in a query with its bytes escaped by percent signs. Those that mean nothing else
in a query may stand for themselves as well, and it does not matter which of them do. So escaped it
is no more than one parameter, its bytes may stand in a target, and reading it gives the value back.
-/

namespace MetricLedger.Http

/-- Bytes that may stand in a query without ending a parameter. -/
def isShown (b : UInt8) : Bool := Target.isQueryByte b && b < 0x7F && b != ascii '&'

/-- Bytes that stand for themselves in the value of a parameter. -/
def isLiteral (b : UInt8) : Bool := isShown b && b != ascii '+' && b != ascii '%'

/-- `Escaped raw s`: the raw bytes are the bytes `s`, each escaped by digits in either case or, if
it needs no escape, as it is. -/
inductive Escaped : Bytes → Bytes → Prop
  | nil : Escaped [] []
  | plain {b : UInt8} {raw s : Bytes} : isLiteral b = true → Escaped raw s →
      Escaped (b :: raw) (b :: s)
  | escape {c d : UInt8} {high low : Nat} {raw s : Bytes} : Text.Hex.byteValue? c = some high →
      Text.Hex.byteValue? d = some low → Escaped raw s →
      Escaped (ascii '%' :: c :: d :: raw) ((high * 16 + low).toUInt8 :: s)

theorem isLiteral_iff {b : UInt8} :
    isLiteral b = true ↔ isShown b = true ∧ b ≠ ascii '+' ∧ b ≠ ascii '%' := by
  simp [isLiteral, and_assoc]

/-- What holds of all 256 bytes. -/
theorem forall_byte {p : UInt8 → Prop} (h : ∀ n : Fin 256, p n.val.toUInt8) (b : UInt8) : p b := by
  have same : b.toNat.toUInt8 = b := UInt8.ofNat_toNat
  exact same ▸ h ⟨b.toNat, b.toNat_lt⟩

theorem shown_of_digit {b : UInt8} {n : Nat} (h : Text.Hex.byteValue? b = some n) :
    isShown b = true := by
  have all : ∀ b, (Text.Hex.byteValue? b).isSome = true → isShown b = true := by
    refine forall_byte ?_
    decide +kernel
  exact all b (by rw [h]; rfl)

theorem Escaped.spelled {raw s : Bytes} (h : Escaped raw s) : Form.Spelled raw s := by
  induction h with
  | nil => exact .nil
  | plain literal _ ih =>
    obtain ⟨-, plus, percent⟩ := isLiteral_iff.mp literal
    exact .plain plus percent ih
  | escape high low _ ih => exact .escape high low ih

theorem Escaped.shown {raw s : Bytes} (h : Escaped raw s) : ∀ b ∈ raw, isShown b = true := by
  induction h with
  | nil => simp
  | plain literal _ ih =>
    simp only [List.forall_mem_cons]
    exact ⟨(isLiteral_iff.mp literal).1, ih⟩
  | escape high low _ ih =>
    simp only [List.forall_mem_cons]
    exact ⟨by decide, shown_of_digit high, shown_of_digit low, ih⟩

/-- Any bytes can be escaped. -/
theorem exists_escaped (s : Bytes) : ∃ raw, Escaped raw s := by
  induction s with
  | nil => exact ⟨[], .nil⟩
  | cons b s ih =>
    obtain ⟨raw, escaped⟩ := ih
    have digits : ∃ c d high low, Text.Hex.byteValue? c = some high ∧
        Text.Hex.byteValue? d = some low ∧ (high * 16 + low).toUInt8 = b := by
      have digit : ∀ n : Fin 16, Text.Hex.byteValue? (ascii (Text.Hex.digit n)) = some n.val := by
        decide
      have := b.toNat_lt
      refine ⟨_, _, _, _, digit ⟨b.toNat / 16, by omega⟩, digit ⟨b.toNat % 16, by omega⟩, ?_⟩
      dsimp only
      rw [show b.toNat / 16 * 16 + b.toNat % 16 = b.toNat by omega]
      exact UInt8.ofNat_toNat
    obtain ⟨c, d, high, low, hc, hd, rfl⟩ := digits
    exact ⟨_, .escape hc hd escaped⟩

/-! ## Queries of one parameter -/

/-- A query of one parameter. -/
def singleQuery (key : String) (raw : Bytes) : Bytes := Bytes.ofString key ++ ascii '=' :: raw

theorem escaped_self {s : Bytes} (h : ∀ b ∈ s, isLiteral b = true) : Escaped s s := by
  induction s with
  | nil => exact .nil
  | cons b s ih =>
    obtain ⟨first, others⟩ := List.forall_mem_cons.mp h
    exact .plain first (ih others)

theorem Form.text_ofString (s : String) : Form.text (Bytes.ofString s) = s := by
  rw [Form.text, Bytes.ofString, Text.Utf8.decodeLossy_encode, String.ofList_toList]

section
variable {key : String} (plain : ∀ b ∈ Bytes.ofString key, isLiteral b = true)
variable {raw s : Bytes} (h : Escaped raw s)
include plain h

theorem shown_singleQuery : ∀ b ∈ singleQuery key raw, isShown b = true := by
  intro b mem
  rcases List.mem_append.mp mem with mem | mem
  · exact (isLiteral_iff.mp (plain b mem)).1
  · rcases List.mem_cons.mp mem with rfl | mem
    · decide
    · exact h.shown b mem

theorem query_singleQuery (noEquals : ascii '=' ∉ Bytes.ofString key) :
    Form.Query (singleQuery key raw) [(Bytes.ofString key, s)] := by
  refine .last ?_ ?_ (.pair noEquals (escaped_self plain).spelled h.spelled)
  · exact List.append_ne_nil_of_right_ne_nil _ (List.cons_ne_nil _ _)
  · intro mem
    have shown := shown_singleQuery plain h _ mem
    revert shown
    decide

end

/-! ## Targets -/

namespace Target

/-- A path and a query make a target, if they hold no bytes out of place. -/
theorem parse_path_query {path query : Bytes}
    (root : path.head? = some (ascii '/')) (longer : 1 < path.length)
    (fits : (path ++ ascii '?' :: query).length ≤ 65534)
    (inPath : ∀ b ∈ path, isPathByte b = true ∧ b < 0x7F ∧ b ≠ ascii '?')
    (inQuery : ∀ b ∈ query, isQueryByte b = true ∧ b < 0x7F) :
    parse (path ++ ascii '?' :: query) = .ok ⟨path, some query⟩ := by
  have noMark : ∀ b ∈ path ++ ascii '?' :: query, (b != ascii '#') = true := by
    intro b mem
    rw [bne_iff_ne]
    rintro rfl
    rcases List.mem_append.mp mem with mem | mem
    · exact absurd (inPath _ mem).1 (by decide)
    · rcases List.mem_cons.mp mem with mark | mem
      · exact absurd mark (by decide)
      · exact absurd (inQuery _ mem).1 (by decide)
  have small : (path ++ ascii '?' :: query).all (· < 0x7F) = true := by
    rw [List.all_append, List.all_cons]
    have left : path.all (· < 0x7F) = true :=
      List.all_eq_true.mpr fun b mem => decide_eq_true (inPath b mem).2.1
    have right : query.all (· < 0x7F) = true :=
      List.all_eq_true.mpr fun b mem => decide_eq_true (inQuery b mem).2
    rw [left, right]
    decide
  have plainPath : path.all isPathByte = true :=
    List.all_eq_true.mpr fun b mem => (inPath b mem).1
  have plainQuery : query.all isQueryByte = true :=
    List.all_eq_true.mpr fun b mem => (inQuery b mem).1
  have kept : (path ++ ascii '?' :: query).takeWhile (· != ascii '#') =
      path ++ ascii '?' :: query := by
    have whole := @List.takeWhile_append_of_pos _ _ _ [] noMark
    rwa [List.append_nil, List.takeWhile_nil, List.append_nil] at whole
  have cut : Text.cut? (ascii '?') (path ++ ascii '?' :: query) = some (path, query) :=
    Text.cut?_append (fun mem => (inPath _ mem).2.2 rfl) query
  obtain ⟨b, rest, rfl⟩ : ∃ b rest, path = ascii '/' :: b :: rest := by
    match path with
    | [] | [_] => simp at longer
    | a :: b :: rest => exact ⟨b, rest, by rw [Option.some.inj root]⟩
  have read : ofPath (ascii '/' :: b :: rest ++ ascii '?' :: query) =
      .ok ⟨ascii '/' :: b :: rest, some query⟩ := by
    simp only [ofPath, kept, cut, plainPath, Option.getD_some, plainQuery,
      hasUtf8, small, Bool.true_or, Bool.and_true, if_true]
    rfl
  unfold parse
  rw [if_neg (Nat.not_lt.mpr fits)]
  exact read

end Target

end MetricLedger.Http
