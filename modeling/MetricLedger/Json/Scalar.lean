import MetricLedger.Json.Reader

/-!
# Values of a single type

How the value of a field is read, by its type. What stands where another kind of value was expected
is read as far as needed to say what it is.
-/

namespace MetricLedger.Json

/-- The fault of a value of the wrong kind, given its first byte and what follows that. -/
def mismatch (expected : String) (b : UInt8) (s : Bytes) : Fault :=
  let wrong (kind : Kind) (rest : Bytes) : Fault := ⟨.wrongKind kind expected, rest⟩
  let word (letters : List Char) (kind : Kind) : Fault :=
    match readWord (letters.map ascii) s with
    | .ok r => wrong kind r
    | .error f => f
  let numeral (found : Outcome Numeral) : Fault :=
    match found with
    | .ok (n, r) => wrong (.number n) r
    | .error f => f
  if b = ascii 'n' then word ['u', 'l', 'l'] .null
  else if b = ascii 't' then word ['r', 'u', 'e'] (.flag true)
  else if b = ascii 'f' then word ['a', 'l', 's', 'e'] (.flag false)
  else if b = ascii '-' then numeral (readNumeral true s)
  else if isDigit b then numeral (readNumeral false (b :: s))
  else if b = ascii '"' then
    match readText s with
    | .ok (text, r) => wrong (.text text) r
    | .error f => f
  else if b = ascii '[' then wrong .list (b :: s)
  else if b = ascii '\x7b' then wrong .object (b :: s)
  else ⟨.wantsValue, s⟩

def readString (expected : String) (s : Bytes) : Outcome String :=
  match skipSpace s with
  | [] => .error ⟨.endInValue, []⟩
  | b :: r => if b = ascii '"' then readText r else .error (mismatch expected b r)

def readNumber (expected : String) (s : Bytes) : Outcome Numeral :=
  match skipSpace s with
  | [] => .error ⟨.endInValue, []⟩
  | b :: r =>
    if b = ascii '-' then readNumeral true r
    else if isDigit b then readNumeral false (b :: r)
    else .error (mismatch expected b r)

def readFlag (s : Bytes) : Outcome Bool :=
  match skipSpace s with
  | [] => .error ⟨.endInValue, []⟩
  | b :: r =>
    if b = ascii 't' then (readWord ("rue".toList.map ascii) r).map fun r => (true, r)
    else if b = ascii 'f' then (readWord ("alse".toList.map ascii) r).map fun r => (false, r)
    else .error (mismatch "a boolean" b r)

/-- Turns what has been read into something else; a refusal is placed after it. -/
def convert (f : α → Except Cause β) : Outcome α → Outcome β
  | .error fault => .error fault
  | .ok (a, r) =>
    match f a with
    | .ok b => .ok (b, r)
    | .error cause => .error ⟨cause, r⟩

/-- A whole number below `bound`. -/
def boundedNatural (bound : Nat) (expected : String) : Numeral → Except Cause Nat
  | .natural n => if n < bound then .ok n else .error (.outOfBounds (.natural n) expected)
  | .negative n => .error (.outOfBounds (.negative n) expected)
  | .double x => .error (.wrongKind (.number (.double x)) expected)

theorem readString_length {expected : String} {s r : Bytes} {text : String}
    (h : readString expected s = .ok (text, r)) : r.length ≤ s.length := by
  have space := skipSpace_length s
  unfold readString at h
  split at h
  · simp at h
  · rename_i eq
    rw [eq] at space; simp only [List.length_cons] at space
    split at h
    · have := readText_length h; omega
    · simp at h

theorem readNumber_length {expected : String} {s r : Bytes} {n : Numeral}
    (h : readNumber expected s = .ok (n, r)) : r.length ≤ s.length := by
  have space := skipSpace_length s
  unfold readNumber at h
  split at h
  · simp at h
  · rename_i eq
    rw [eq] at space; simp only [List.length_cons] at space
    split at h
    · have := readNumeral_length h; omega
    · split at h
      · have := readNumeral_length h; simp only [List.length_cons] at this; omega
      · simp at h

theorem ok_of_map {f : α → β} {x : Except ε α} {b : β} (h : x.map f = .ok b) :
    ∃ a, x = .ok a ∧ f a = b := by
  cases x with
  | error => cases h
  | ok a => exact ⟨a, rfl, Except.ok.inj h⟩

theorem readFlag_length {s r : Bytes} {b : Bool} (h : readFlag s = .ok (b, r)) :
    r.length ≤ s.length := by
  have space := skipSpace_length s
  unfold readFlag at h
  split at h
  · simp at h
  · rename_i eq
    rw [eq] at space; simp only [List.length_cons] at space
    split at h
    · obtain ⟨u, read, pair⟩ := ok_of_map h
      have := readWord_length read
      cases pair; omega
    · split at h
      · obtain ⟨u, read, pair⟩ := ok_of_map h
        have := readWord_length read
        cases pair; omega
      · simp at h

theorem convert_length {f : α → Except Cause β} {found : Outcome α} {b : β} {r : Bytes} {n : Nat}
    (read : ∀ {a : α} {r : Bytes}, found = .ok (a, r) → r.length ≤ n)
    (h : convert f found = .ok (b, r)) : r.length ≤ n := by
  unfold convert at h
  split at h
  · simp at h
  · split at h
    · simp only [Except.ok.injEq, Prod.mk.injEq] at h; rw [← h.2]; exact read rfl
    · simp at h

/-- A type that the value of a field can have. -/
class Scalar (α : Type) where
  read : Bytes → Outcome α
  /-- The value of a field that is not there, if it may be missing. -/
  absent : Option α
  read_length : ∀ {s r : Bytes} {a : α}, read s = .ok (a, r) → r.length ≤ s.length

instance : Scalar String where
  read := readString "a string"
  absent := none
  read_length := readString_length

instance : Scalar Bool where
  read := readFlag
  absent := none
  read_length := readFlag_length

instance : Scalar Double where
  read s := convert (fun n => .ok n.toDouble) (readNumber "f64" s)
  absent := none
  read_length := convert_length readNumber_length

instance : Scalar UInt16 where
  read s := convert (fun n => (boundedNatural UInt16.size "u16" n).map Nat.toUInt16)
    (readNumber "u16" s)
  absent := none
  read_length := convert_length readNumber_length

instance : Scalar UInt32 where
  read s := convert (fun n => (boundedNatural UInt32.size "u32" n).map Nat.toUInt32)
    (readNumber "u32" s)
  absent := none
  read_length := convert_length readNumber_length

instance : Scalar UInt64 where
  read s := convert (fun n => (boundedNatural UInt64.size "u64" n).map Nat.toUInt64)
    (readNumber "u64" s)
  absent := none
  read_length := convert_length readNumber_length

instance : Scalar Uuid where
  read s := convert (fun text => (Uuid.parse text.toList).mapError .uuid)
    (readString "a formatted UUID string" s)
  absent := none
  read_length := convert_length readString_length

instance : Scalar Instant where
  read s := convert (fun text => (Instant.parse text.toList).mapError .instant)
    (readString "an RFC 3339 formatted date and time string" s)
  absent := none
  read_length := convert_length readString_length

/-- A value or `null`; a value that is not there counts as `null`. -/
def readOptional (read : Bytes → Outcome α) (s : Bytes) : Outcome (Option α) :=
  match skipSpace s with
  | [] => .error ⟨.endInValue, []⟩
  | b :: r =>
    if b = ascii 'n' then (readWord ("ull".toList.map ascii) r).map fun r => (none, r)
    else (read (b :: r)).map fun (a, r) => (some a, r)

theorem readOptional_length [Scalar α] {s r : Bytes} {a : Option α}
    (h : readOptional (Scalar.read (α := α)) s = .ok (a, r)) : r.length ≤ s.length := by
  have space := skipSpace_length s
  unfold readOptional at h
  split at h
  · simp at h
  · rename_i b t eq
    rw [eq] at space; simp only [List.length_cons] at space
    split at h
    · obtain ⟨u, read, pair⟩ := ok_of_map h
      have := readWord_length read
      cases pair; omega
    · obtain ⟨u, read, pair⟩ := ok_of_map h
      have := Scalar.read_length read
      cases pair; simp only [List.length_cons] at this; omega

instance [Scalar α] : Scalar (Option α) where
  read := readOptional Scalar.read
  absent := some none
  read_length := readOptional_length

end MetricLedger.Json
