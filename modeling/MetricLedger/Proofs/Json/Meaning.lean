import MetricLedger.Json.Shape
import MetricLedger.Proofs.Json.Numeral
import MetricLedger.Proofs.Result

/-!
# What values mean to the readers of fields

A field's reader sees a value only as a value: what it makes of one, or why it refuses it, does not
depend on the form in which the value is written or on what follows it.
-/

namespace MetricLedger.Json

/-- What a whole text is read as, the place of a fault left aside. -/
def verdict (read : Bytes → Outcome α) (s : Bytes) : Except Cause α :=
  (whole read s).mapError Located.cause

theorem verdict_of_unplaced {read : Bytes → Outcome α} {s t : Bytes} {result : Except Cause α}
    (h : unplaced (read s) = result.map (·, t)) (space : Gap t []) : verdict read s = result := by
  unfold verdict whole
  obtain ⟨fault, read, rfl⟩ | ⟨a, read, rfl⟩ := unplaced_cases h
  · rw [read]; rfl
  · simp only [read, space.skipSpace_eq]; rfl

theorem verdict_eq_ok_iff {read : Bytes → Outcome α} {s : Bytes} {a : α} :
    verdict read s = .ok a ↔ whole read s = .ok a := mapError_eq_ok_iff

/-! ## Numbers -/

/-- What a number literal is read as. -/
def numeralOf (literal : Bytes) : Except Cause Numeral := verdict (readNumber "f64") literal

/-- A number with its sign. -/
def readSigned : Bytes → Outcome Numeral
  | [] => .error ⟨.endInValue, []⟩
  | b :: s => if b = ascii '-' then readNumeral true s else readNumeral false (b :: s)

theorem digit_ne {b : UInt8} (h : isDigit b = true) : b ≠ ascii 'n' ∧ b ≠ ascii 't' ∧
    b ≠ ascii 'f' ∧ b ≠ ascii '-' ∧ b ≠ ascii '"' ∧ b ≠ ascii '[' ∧ b ≠ ascii '\x7b' := by
  refine ⟨?_, ?_, ?_, ?_, ?_, ?_, ?_⟩ <;> (rintro rfl; revert h; decide)

theorem isSpace_of_isDigit {b : UInt8} (h : isDigit b = true) : isSpace b = false := by
  cases space : isSpace b with
  | false => rfl
  | true =>
    simp only [isSpace, Bool.or_eq_true, beq_iff_eq] at space
    rcases space with ((rfl | rfl) | rfl) | rfl <;> revert h <;> decide

theorem Whole.cons {w : Bytes} (h : Whole w) : ∃ b s, w = b :: s ∧ isDigit b = true := by
  cases h with
  | zero => exact ⟨_, _, rfl, by decide⟩
  | digits _ digits => exact ⟨_, _, rfl, digits.2 _ (List.mem_cons_self ..)⟩

theorem Literal.cons {literal : Bytes} (h : Literal literal) :
    ∃ b s, literal = b :: s ∧ (b = ascii '-' ∨ isDigit b = true) := by
  cases h with
  | positive whole =>
    obtain ⟨b, s, rfl, digit⟩ := whole.cons
    exact ⟨b, _, rfl, .inr digit⟩
  | negative => exact ⟨_, _, rfl, .inl rfl⟩

theorem isSpace_of_number {b : UInt8} (h : b = ascii '-' ∨ isDigit b = true) :
    isSpace b = false := by
  rcases h with rfl | digit
  · decide
  · exact isSpace_of_isDigit digit

theorem Literal.document {literal : Bytes} (h : Literal literal) :
    Document (.number literal) literal := by
  have written := Written.number (t := []) h
  rw [List.append_nil] at written
  exact ⟨.none, written, .none⟩

theorem readNumber_literal {literal : Bytes} (h : Literal literal) (expected : String) {r t : Bytes}
    (space : Gap r (literal ++ t)) : readNumber expected r = readSigned (literal ++ t) := by
  obtain ⟨b, s, rfl, number⟩ := h.cons
  rw [List.cons_append] at space ⊢
  rw [readNumber, space.skipSpace_cons (isSpace_of_number number), readSigned]
  by_cases minus : b = ascii '-'
  · simp only [if_pos minus]
  · simp only [if_neg minus, number.resolve_left minus, if_true]

theorem readSigned_takes {literal : Bytes} (h : Literal literal) : Takes readSigned literal := by
  cases h with
  | positive whole f e =>
    refine (readNumeral_takes false whole f e).congr fun t _ => ?_
    obtain ⟨b, s, rfl, digit⟩ := whole.cons
    simp only [List.cons_append, readSigned, if_neg (digit_ne digit).2.2.2.1]
  | negative whole f e => exact (readNumeral_takes true whole f e).congr fun t _ => rfl

/-- A literal is read as it is when it stands alone. -/
theorem unplaced_readSigned {literal t : Bytes} (h : Literal literal) (ends : Ends t) :
    unplaced (readSigned (literal ++ t)) = (numeralOf literal).map (·, t) := by
  obtain ⟨result, taken⟩ := readSigned_takes h
  have alone : numeralOf literal = result := by
    refine verdict_of_unplaced (t := []) ?_ .none
    have alone := taken [] ends_nil
    rwa [← readNumber_literal h "f64" .none, List.append_nil] at alone
  rw [taken t ends, alone]

/-! ## Kinds -/

/-- The kind of a value, as a reader that wants another kind finds it. -/
def Tree.kind : Tree → Except Cause Kind
  | .null => .ok .null
  | .flag b => .ok (.flag b)
  | .number literal => (numeralOf literal).map .number
  | .text s => .ok (.text s)
  | .list _ => .ok .list
  | .object _ => .ok .object

/-- Why a value is refused where one of another kind is expected. -/
def Tree.misfit (expected : String) (v : Tree) : Cause :=
  match v.kind with
  | .ok kind => .wrongKind kind expected
  | .error cause => cause

/-- Whether a byte is the first one of the forms of a value. -/
def Tree.StartsWith (b : UInt8) : Tree → Prop
  | .null => b = ascii 'n'
  | .flag f => b = if f then ascii 't' else ascii 'f'
  | .number _ => b = ascii '-' ∨ isDigit b = true
  | .text _ => b = ascii '"'
  | .list _ => b = ascii '['
  | .object _ => b = ascii '\x7b'

theorem Written.cons {v : Tree} {s t : Bytes} (h : Written v s t) :
    ∃ b r, s = b :: r ∧ v.StartsWith b := by
  cases h with
  | number literal =>
    obtain ⟨b, s, rfl, number⟩ := literal.cons
    exact ⟨b, _, rfl, number⟩
  | @flag b => cases b <;> exact ⟨_, _, rfl, rfl⟩
  | _ => exact ⟨_, _, rfl, rfl⟩

theorem Tree.StartsWith.isSpace {v : Tree} {b : UInt8} (h : v.StartsWith b) :
    isSpace b = false := by
  cases v with
  | number => exact isSpace_of_number h
  | flag f => cases f <;> (cases h; decide)
  | _ => cases h; decide

theorem Tree.StartsWith.ne_mark {x : Tree} {b : UInt8} (h : x.StartsWith b) :
    b ≠ ascii ']' ∧ b ≠ ascii ',' := by
  cases x with
  | number =>
    constructor
    · rintro rfl
      exact absurd h (show ¬ (_ ∨ _) by decide)
    · rintro rfl
      exact absurd h (show ¬ (_ ∨ _) by decide)
  | flag f => cases f <;> (cases h; decide)
  | _ => cases h; decide

/-- Where a value of the wrong kind stands, it is read far enough to tell its kind. -/
theorem mismatch_cause {v : Tree} {b : UInt8} {s t : Bytes} (h : Written v (b :: s) t)
    (ends : Ends t) (expected : String) : (mismatch expected b s).cause = v.misfit expected := by
  generalize whole : b :: s = r at h
  cases h with
  | null =>
    obtain ⟨rfl, rfl⟩ := List.cons.inj whole
    rfl
  | @flag f =>
    cases f <;> (obtain ⟨rfl, rfl⟩ := List.cons.inj whole; rfl)
  | text spelled =>
    obtain ⟨rfl, rfl⟩ := List.cons.inj whole
    simp only [mismatch, spelled.readText_eq]
    rfl
  | list => obtain ⟨rfl, rfl⟩ := List.cons.inj whole; rfl
  | object => obtain ⟨rfl, rfl⟩ := List.cons.inj whole; rfl
  | @number literal _ h =>
    have read := unplaced_readSigned h ends
    have first : b = ascii '-' ∨ isDigit b = true := by
      obtain ⟨c, u, rfl, number⟩ := h.cons
      obtain ⟨rfl, -⟩ := List.cons.inj whole
      exact number
    have unfolded : (mismatch expected b s).cause = match unplaced (readSigned (b :: s)) with
        | .ok (n, _) => .wrongKind (.number n) expected
        | .error c => c := by
      rcases first with rfl | digit
      · simp only [mismatch, readSigned, if_true]
        cases readNumeral true s <;> rfl
      · obtain ⟨n, t, f, minus, -⟩ := digit_ne digit
        simp only [mismatch, readSigned, n, t, f, minus, digit, if_true, if_false]
        cases readNumeral false (b :: s) <;> rfl
    rw [unfolded, whole, read]
    simp only [Tree.misfit, Tree.kind]
    cases numeralOf literal <;> rfl

/-! ## Readers -/

/-- A text, where the expected kind is one. -/
def Tree.asText (expected : String) : Tree → Except Cause String
  | .text s => .ok s
  | v => .error (v.misfit expected)

/-- A number, where the expected kind is one. -/
def Tree.asNumber (expected : String) : Tree → Except Cause Numeral
  | .number literal => numeralOf literal
  | v => .error (v.misfit expected)

theorem Tree.StartsWith.ne_quote {v : Tree} {b : UInt8} (h : v.StartsWith b)
    (other : ∀ s, v ≠ .text s) : b ≠ ascii '"' := by
  cases v with
  | text s => exact absurd rfl (other s)
  | number => rcases h with rfl | digit
              · decide
              · exact (digit_ne digit).2.2.2.2.1
  | flag f => cases f <;> (cases h; decide)
  | _ => cases h; decide

theorem Tree.StartsWith.not_number {v : Tree} {b : UInt8} (h : v.StartsWith b)
    (other : ∀ literal, v ≠ .number literal) : b ≠ ascii '-' ∧ isDigit b = false := by
  cases v with
  | number literal => exact absurd rfl (other literal)
  | flag f => cases f <;> (cases h; decide)
  | _ => cases h; decide

theorem Tree.asText_of_ne {v : Tree} (other : ∀ s, v ≠ .text s) (expected : String) :
    v.asText expected = .error (v.misfit expected) := by
  cases v with
  | text s => exact absurd rfl (other s)
  | _ => rfl

theorem Tree.asText_eq_ok_iff {expected s : String} {v : Tree} :
    v.asText expected = .ok s ↔ v = .text s := by
  constructor
  · intro h
    cases v with
    | text t => cases h; rfl
    | _ => cases h
  · rintro rfl
    rfl

theorem Tree.asNumber_of_ne {v : Tree} (other : ∀ literal, v ≠ .number literal)
    (expected : String) : v.asNumber expected = .error (v.misfit expected) := by
  cases v with
  | number literal => exact absurd rfl (other literal)
  | _ => rfl

theorem unplaced_readString {v : Tree} {r s t : Bytes} (space : Gap r s) (h : Written v s t)
    (ends : Ends t) (expected : String) :
    unplaced (readString expected r) = (v.asText expected).map (·, t) := by
  by_cases text : ∃ word, v = .text word
  · obtain ⟨word, rfl⟩ := text
    obtain ⟨spelled⟩ := h
    rw [readString, space.skipSpace_cons (by decide)]
    simp only [if_true, Spelled.readText_eq ‹_›]
    rfl
  · have other : ∀ word, v ≠ .text word := fun word eq => text ⟨word, eq⟩
    obtain ⟨b, u, rfl, first⟩ := h.cons
    rw [readString, space.skipSpace_cons first.isSpace, Tree.asText_of_ne other,
      ← mismatch_cause h ends expected]
    simp only [if_neg (first.ne_quote other)]
    rfl

theorem unplaced_readNumber {v : Tree} {r s t : Bytes} (space : Gap r s) (h : Written v s t)
    (ends : Ends t) (expected : String) :
    unplaced (readNumber expected r) = (v.asNumber expected).map (·, t) := by
  by_cases number : ∃ literal, v = .number literal
  · obtain ⟨literal, rfl⟩ := number
    obtain ⟨literal⟩ := h
    rw [readNumber_literal ‹_› expected space, unplaced_readSigned ‹_› ends]
    rfl
  · have other : ∀ literal, v ≠ .number literal := fun literal eq => number ⟨literal, eq⟩
    obtain ⟨b, u, rfl, first⟩ := h.cons
    obtain ⟨minus, digit⟩ := first.not_number other
    rw [readNumber, space.skipSpace_cons first.isSpace, Tree.asNumber_of_ne other,
      ← mismatch_cause h ends expected]
    simp only [if_neg minus, digit]
    rfl

/-- What the fields of a type are read from: each value has one reading, whatever its form. -/
class Meaning (α : Type) [Scalar α] where
  of : Tree → Except Cause α
  read_written : ∀ {v : Tree} {r s t : Bytes}, Gap r s → Written v s t → Ends t →
    unplaced (Scalar.read r) = (of v).map (·, t)

theorem unplaced_convert {f : α → Except Cause β} {found : Outcome α} {result : Except Cause α}
    {t : Bytes} (h : unplaced found = result.map (·, t)) :
    unplaced (convert f found) = (result.bind f).map (·, t) := by
  obtain ⟨fault, rfl, rfl⟩ | ⟨a, rfl, rfl⟩ := unplaced_cases h
  · rfl
  · simp only [convert, Except.bind]
    cases f a <;> rfl

theorem unplaced_map {found : Outcome α} {result : Except Cause α} {t : Bytes} (f : α → β)
    (h : unplaced found = result.map (·, t)) :
    unplaced (found.map fun (a, r) => (f a, r)) = (result.map f).map (·, t) := by
  obtain ⟨fault, rfl, rfl⟩ | ⟨a, rfl, rfl⟩ := unplaced_cases h
  · rfl
  · rfl

instance : Meaning String where
  of := Tree.asText "a string"
  read_written space h ends := unplaced_readString space h ends _

instance : Meaning Double where
  of v := (v.asNumber "f64").bind fun n => .ok n.toDouble
  read_written space h ends := unplaced_convert (unplaced_readNumber space h ends _)

instance : Meaning Uuid where
  of v := (v.asText "a formatted UUID string").bind fun text =>
    (Uuid.parse text.toList).mapError .uuid
  read_written space h ends := unplaced_convert (unplaced_readString space h ends _)

instance : Meaning Instant where
  of v := (v.asText "an RFC 3339 formatted date and time string").bind fun text =>
    (Instant.parse text.toList).mapError .instant
  read_written space h ends := unplaced_convert (unplaced_readString space h ends _)

theorem Meaning.uuid_text (text : String) : Meaning.of (α := Uuid) (.text text) =
    (Uuid.parse text.toList).mapError .uuid := rfl

theorem Meaning.instant_text (text : String) : Meaning.of (α := Instant) (.text text) =
    (Instant.parse text.toList).mapError .instant := rfl

/-- A value alone is read as what it means. -/
theorem Meaning.verdict_eq [Scalar α] [Meaning α] {v : Tree} {s : Bytes} (h : Document v s) :
    verdict (Scalar.read (α := α)) s = Meaning.of v := by
  obtain ⟨before, written, after⟩ := h
  exact verdict_of_unplaced (Meaning.read_written before written (after.ends ends_nil)) after

theorem Written.literal {literal s t : Bytes} (h : Written (.number literal) s t) :
    Literal literal := by
  cases h with
  | number written => exact written

/-- A number is what its literal is read as when it stands alone, and no other value is a number. -/
theorem Meaning.double_eq_ok_iff {v : Tree} {s t : Bytes} (h : Written v s t) {x : Double} :
    Meaning.of v = .ok x ↔ ∃ literal, v = .number literal ∧ whole Scalar.read literal = .ok x := by
  constructor
  · intro meant
    by_cases number : ∃ literal, v = .number literal
    · obtain ⟨literal, rfl⟩ := number
      refine ⟨literal, rfl, verdict_eq_ok_iff.mp ?_⟩
      rw [Meaning.verdict_eq h.literal.document, meant]
    · have misfit := Tree.asNumber_of_ne (fun literal eq => number ⟨literal, eq⟩) "f64"
      have refused : Meaning.of (α := Double) v = .error (v.misfit "f64") := by
        change (v.asNumber "f64").bind _ = _
        rw [misfit]
        rfl
      rw [refused] at meant
      cases meant
  · rintro ⟨literal, rfl, read⟩
    rw [← Meaning.verdict_eq h.literal.document]
    exact verdict_eq_ok_iff.mpr read

/-- The same of a value of which something else is known. -/
theorem exists_number_iff {holds : Tree → Prop} (written : ∀ v, holds v → ∃ s t, Written v s t)
    {x : Double} : (∃ v, holds v ∧ Meaning.of v = .ok x) ↔
      ∃ literal, holds (.number literal) ∧ whole Scalar.read literal = .ok x := by
  constructor
  · rintro ⟨v, held, meant⟩
    obtain ⟨_, _, form⟩ := written v held
    obtain ⟨literal, rfl, read⟩ := (Meaning.double_eq_ok_iff form).mp meant
    exact ⟨literal, held, read⟩
  · rintro ⟨literal, held, read⟩
    obtain ⟨_, _, form⟩ := written _ held
    exact ⟨_, held, (Meaning.double_eq_ok_iff form).mpr ⟨literal, rfl, read⟩⟩

end MetricLedger.Json
