import MetricLedger.Http.Form

/-!
# The spelling of queries

A grammar of form-encoded queries: which bytes a raw key or value spells, and which parameters a
query holds. Every query has parameters, and `parameters` are the texts of them.
-/

namespace MetricLedger.Http.Form

/-- `Spelled raw s`: the raw bytes spell the bytes `s`. Every byte but a plus and a percent sign may
stand for itself; a percent sign that no two digits follow does too. -/
inductive Spelled : Bytes → Bytes → Prop
  | nil : Spelled [] []
  | plus {raw s : Bytes} : Spelled raw s → Spelled (ascii '+' :: raw) (ascii ' ' :: s)
  | escape {c d : UInt8} {high low : Nat} {raw s : Bytes} : Text.Hex.byteValue? c = some high →
      Text.Hex.byteValue? d = some low → Spelled raw s →
      Spelled (ascii '%' :: c :: d :: raw) ((high * 16 + low).toUInt8 :: s)
  | percent {raw s : Bytes} : pair? raw = none → Spelled raw s →
      Spelled (ascii '%' :: raw) (ascii '%' :: s)
  | plain {b : UInt8} {raw s : Bytes} : b ≠ ascii '+' → b ≠ ascii '%' → Spelled raw s →
      Spelled (b :: raw) (b :: s)

/-- A parameter and the bytes of its key and value. -/
inductive Parameter : Bytes → Bytes × Bytes → Prop
  | pair {rawKey rawValue key value : Bytes} : ascii '=' ∉ rawKey → Spelled rawKey key →
      Spelled rawValue value → Parameter (rawKey ++ ascii '=' :: rawValue) (key, value)
  | bare {rawKey key : Bytes} : ascii '=' ∉ rawKey → Spelled rawKey key → Parameter rawKey (key, [])

/-- A query and its parameters in order; ampersands may stand side by side and at either end. -/
inductive Query : Bytes → List (Bytes × Bytes) → Prop
  | nil : Query [] []
  | skip {q : Bytes} {ps : List (Bytes × Bytes)} : Query q ps → Query (ascii '&' :: q) ps
  | last {raw : Bytes} {p : Bytes × Bytes} : raw ≠ [] → ascii '&' ∉ raw → Parameter raw p →
      Query raw [p]
  | cons {raw q : Bytes} {p : Bytes × Bytes} {ps : List (Bytes × Bytes)} : raw ≠ [] →
      ascii '&' ∉ raw → Parameter raw p → Query q ps → Query (raw ++ ascii '&' :: q) (p :: ps)

/-- The text of bytes that need not be UTF-8. -/
def text (s : Bytes) : String := String.ofList (Text.Utf8.decodeLossy s)

@[simp] theorem text_nil : text [] = "" := by simp [text, Text.Utf8.decodeLossy, Text.Utf8.pieces]

/-! ## Bytes -/

theorem byteValue?_plusToSpace (b : UInt8) :
    Text.Hex.byteValue? (if b = ascii '+' then ascii ' ' else b) = Text.Hex.byteValue? b := by
  split
  · subst b; decide
  · rfl

theorem pair?_plusToSpace (raw : Bytes) : pair? (plusToSpace raw) = pair? raw := by
  unfold plusToSpace
  match raw with
  | [] => rfl
  | [_] => rfl
  | c :: d :: raw => simp only [List.map_cons, pair?, byteValue?_plusToSpace]

theorem percentDecode_cons_ne {b : UInt8} (h : b ≠ ascii '%') (s : Bytes) :
    percentDecode (b :: s) = b :: percentDecode s := by
  rw [percentDecode, if_neg h]

theorem percentDecode_percent (s : Bytes) : percentDecode (ascii '%' :: s) =
    match pair? s with
    | some c => c :: percentDecode (s.drop 2)
    | none => ascii '%' :: percentDecode s := by
  rw [percentDecode]
  exact if_pos rfl

/-- A spelling determines the bytes. -/
theorem Spelled.decode {raw s : Bytes} (h : Spelled raw s) :
    percentDecode (plusToSpace raw) = s := by
  induction h with
  | nil => simp [plusToSpace, percentDecode]
  | @plus raw s _ ih =>
    have : plusToSpace (ascii '+' :: raw) = ascii ' ' :: plusToSpace raw := rfl
    rw [this, percentDecode_cons_ne (by decide), ih]
  | @escape c d high low raw s hc hd _ ih =>
    have : plusToSpace (ascii '%' :: c :: d :: raw) =
        ascii '%' :: plusToSpace (c :: d :: raw) := rfl
    rw [this, percentDecode_percent, pair?_plusToSpace]
    simp only [pair?, hc, hd]
    exact congrArg _ ih
  | @percent raw s alone _ ih =>
    have : plusToSpace (ascii '%' :: raw) = ascii '%' :: plusToSpace raw := rfl
    rw [this, percentDecode_percent, pair?_plusToSpace, alone, ih]
  | @plain b raw s plus percent _ ih =>
    have : plusToSpace (b :: raw) = b :: plusToSpace raw := by
      rw [plusToSpace, List.map_cons, if_neg plus]; rfl
    rw [this, percentDecode_cons_ne percent, ih]

theorem pair?_eq_some {raw : Bytes} {n : UInt8} (h : pair? raw = some n) :
    ∃ c d high low rest, raw = c :: d :: rest ∧ Text.Hex.byteValue? c = some high ∧
      Text.Hex.byteValue? d = some low := by
  match raw with
  | [] | [_] => cases h
  | c :: d :: rest =>
    cases hc : Text.Hex.byteValue? c with
    | none => simp [pair?, hc] at h
    | some high =>
      cases hd : Text.Hex.byteValue? d with
      | none => simp [pair?, hc, hd] at h
      | some low => exact ⟨c, d, high, low, rest, rfl, hc, hd⟩

/-- Any bytes are a spelling. -/
theorem exists_spelled (raw : Bytes) : ∃ s, Spelled raw s := by
  induction hn : raw.length using Nat.strongRecOn generalizing raw with
  | ind n ih =>
    match raw with
    | [] => exact ⟨[], .nil⟩
    | b :: raw =>
      have shorter (rest : Bytes) (h : rest.length ≤ raw.length) : ∃ s, Spelled rest s :=
        ih rest.length (by simp at hn; omega) rest rfl
      obtain ⟨s, spelled⟩ := shorter raw (Nat.le_refl _)
      by_cases plus : b = ascii '+'
      · subst plus
        exact ⟨_, .plus spelled⟩
      by_cases percent : b = ascii '%'
      · subst percent
        cases digits : pair? raw with
        | none => exact ⟨_, .percent digits spelled⟩
        | some n =>
          obtain ⟨c, d, high, low, rest, rfl, hc, hd⟩ := pair?_eq_some digits
          obtain ⟨s, spelled⟩ := shorter rest (by simp only [List.length_cons]; omega)
          exact ⟨_, .escape hc hd spelled⟩
      · exact ⟨_, .plain plus percent spelled⟩

theorem Spelled.decode_eq {raw s : Bytes} (h : Spelled raw s) : Form.decode raw = text s := by
  rw [Form.decode, h.decode, text]

/-! ## Parameters -/

theorem Parameter.parameter {raw : Bytes} {p : Bytes × Bytes} (h : Parameter raw p) :
    Form.parameter raw = (text p.1, text p.2) := by
  cases h with
  | pair noEquals key value =>
    rw [Form.parameter, Text.cut?_append noEquals]
    simp only [key.decode_eq, value.decode_eq]
  | bare noEquals key =>
    rw [Form.parameter, Text.cut?_of_not_mem noEquals]
    simp only [key.decode_eq, text_nil]

theorem exists_parameter (raw : Bytes) : ∃ p, Parameter raw p := by
  by_cases equals : ascii '=' ∈ raw
  · obtain ⟨rawKey, rawValue, rfl, first⟩ := List.eq_append_cons_of_mem equals
    obtain ⟨key, spelledKey⟩ := exists_spelled rawKey
    obtain ⟨value, spelledValue⟩ := exists_spelled rawValue
    exact ⟨_, .pair first spelledKey spelledValue⟩
  · obtain ⟨key, spelled⟩ := exists_spelled raw
    exact ⟨_, .bare equals spelled⟩

/-! ## Queries -/

theorem parameters_skip (q : Bytes) : parameters (ascii '&' :: q) = parameters q := by
  simp [parameters, Text.split]

theorem parameters_last {raw : Bytes} (nonempty : raw ≠ []) (h : ascii '&' ∉ raw) :
    parameters raw = [parameter raw] := by
  rw [parameters, Text.split_of_not_mem h]
  simp [nonempty]

theorem parameters_append {raw : Bytes} (nonempty : raw ≠ []) (h : ascii '&' ∉ raw) (q : Bytes) :
    parameters (raw ++ ascii '&' :: q) = parameter raw :: parameters q := by
  rw [parameters, Text.split_append h]
  simp [parameters, nonempty]

theorem Query.parameters {q : Bytes} {ps : List (Bytes × Bytes)} (h : Query q ps) :
    Form.parameters q = ps.map fun p => (text p.1, text p.2) := by
  induction h with
  | nil => rfl
  | skip _ ih => rw [parameters_skip, ih]
  | last nonempty noAmpersand p => rw [parameters_last nonempty noAmpersand, p.parameter]; rfl
  | cons nonempty noAmpersand p _ ih =>
    rw [parameters_append nonempty noAmpersand, p.parameter, ih]; rfl

/-- Any bytes are a query. -/
theorem exists_query (q : Bytes) : ∃ ps, Query q ps := by
  induction hn : q.length using Nat.strongRecOn generalizing q with
  | ind n ih =>
    by_cases ampersand : ascii '&' ∈ q
    · obtain ⟨raw, rest, rfl, first⟩ := List.eq_append_cons_of_mem ampersand
      obtain ⟨ps, query⟩ := ih rest.length (by simp at hn; omega) rest rfl
      by_cases empty : raw = []
      · exact ⟨ps, empty ▸ .skip query⟩
      · obtain ⟨p, parameter⟩ := exists_parameter raw
        exact ⟨p :: ps, .cons empty first parameter query⟩
    · by_cases empty : q = []
      · exact ⟨[], empty ▸ .nil⟩
      · obtain ⟨p, parameter⟩ := exists_parameter q
        exact ⟨[p], .last empty ampersand parameter⟩

end MetricLedger.Http.Form
