import MetricLedger.Json.Scalar
import MetricLedger.Json.Skip

/-!
# Records in JSON text

A shape lists the fields of a record. A record is read from an object, whose members may come in any
order, or from a list with one value for each field in turn. A strict shape refuses members that are
no fields; any other shape passes over them.
-/

namespace MetricLedger.Json

structure Column where
  name : String
  type : Type
  scalar : Scalar type

/-- A field of the given name and type. -/
def column (name : String) (α : Type) [scalar : Scalar α] : Column := ⟨name, α, scalar⟩

/-- A value for each field. -/
def Row : List Column → Type
  | [] => Unit
  | c :: cs => c.type × Row cs

/-- The fields whose value is known so far. -/
def Draft : List Column → Type
  | [] => Unit
  | c :: cs => Option c.type × Draft cs

def Draft.empty : (cs : List Column) → Draft cs
  | [] => ()
  | _ :: cs => (none, Draft.empty cs)

/-- The finished record, or the first field that is missing. -/
def Draft.finish : (cs : List Column) → Draft cs → Except Cause (Row cs)
  | [], () => .ok ()
  | c :: cs, (value, draft) =>
    match value.orElse fun _ => c.scalar.absent with
    | none => .error (.missing c.name)
    | some value => (Draft.finish cs draft).map fun row => (value, row)

structure Shape (α : Type) where
  name : String
  columns : List Column
  strict : Bool
  build : Row columns → α

def Shape.keys (shape : Shape α) : List String := shape.columns.map Column.name

/-- What a list or an object goes on with: its end, or the place of the next item. -/
inductive Next
  | closed (rest : Bytes)
  | item (rest : Bytes)

/-- The next value of a list. -/
def nextValue (first : Bool) (s : Bytes) : Except Fault Next :=
  match skipSpace s with
  | [] => .error ⟨.endInList, []⟩
  | b :: r =>
    if b = ascii ']' then .ok (.closed r)
    else if first then .ok (.item (b :: r))
    else if b = ascii ',' then
      match skipSpace r with
      | [] => .error ⟨.endInValue, []⟩
      | c :: t => if c = ascii ']' then .error ⟨.trailingComma, t⟩ else .ok (.item (c :: t))
    else .error ⟨.wantsListEnd, r⟩

/-- The next key of an object, its opening quote read. -/
def nextKey (first : Bool) (s : Bytes) : Except Fault Next :=
  match skipSpace s with
  | [] => .error ⟨.endInObject, []⟩
  | b :: r =>
    if b = ascii '\x7d' then .ok (.closed r)
    else if first then if b = ascii '"' then .ok (.item r) else .error ⟨.wantsKey, r⟩
    else if b = ascii ',' then
      match skipSpace r with
      | [] => .error ⟨.endInValue, []⟩
      | c :: t =>
        if c = ascii '"' then .ok (.item t)
        else if c = ascii '\x7d' then .error ⟨.trailingComma, t⟩
        else .error ⟨.wantsKey, t⟩
    else .error ⟨.wantsObjectEnd, r⟩

/-- The end of a list all of whose values have been read. -/
def endList (s : Bytes) : Except Fault Bytes :=
  match skipSpace s with
  | [] => .error ⟨.endInList, []⟩
  | b :: r =>
    if b = ascii ']' then .ok r
    else if b = ascii ',' then
      match skipSpace r with
      | c :: t => .error ⟨if c = ascii ']' then .trailingComma else .trailingText, t⟩
      | [] => .error ⟨.trailingText, []⟩
    else .error ⟨.trailingText, r⟩

def readColon (s : Bytes) : Except Fault Bytes :=
  match skipSpace s with
  | [] => .error ⟨.endInObject, []⟩
  | b :: r => if b = ascii ':' then .ok r else .error ⟨.wantsColon, r⟩

/-- Where a fault about a key is placed: past the white space and the closing brace after it. -/
def pastKey (s : Bytes) : Bytes :=
  match skipSpace s with
  | b :: r => if b = ascii '\x7d' then r else b :: r
  | [] => []

/-- Reads the value of the field `key` into a draft; `none` if there is no such field. -/
def Draft.read? (key : String) (s : Bytes) :
    (cs : List Column) → Draft cs → Option (Outcome (Draft cs))
  | [], () => none
  | c :: cs, (value, draft) =>
    if key = c.name then
      some (match value with
        | some _ => .error ⟨.repeated key, pastKey s⟩
        | none =>
          match readColon s with
          | .error f => .error f
          | .ok r =>
            match c.scalar.read r with
            | .error f => .error f
            | .ok (v, r) => .ok ((some v, draft), r))
    else (Draft.read? key s cs draft).map fun found => found.map fun (d, r) => ((value, d), r)

theorem nextKey_length {first : Bool} {s r : Bytes} (h : nextKey first s = .ok (.item r)) :
    r.length < s.length := by
  have space := skipSpace_length s
  unfold nextKey at h
  split at h
  · simp at h
  · rename_i b t eq
    rw [eq] at space; simp only [List.length_cons] at space
    split at h
    · simp at h
    · split at h
      · split at h
        · simp only [Except.ok.injEq, Next.item.injEq] at h; rw [← h]; omega
        · simp at h
      · split at h
        · have space' := skipSpace_length t
          split at h
          · simp at h
          · rename_i eq'
            rw [eq'] at space'; simp only [List.length_cons] at space'
            split at h
            · simp only [Except.ok.injEq, Next.item.injEq] at h; rw [← h]; omega
            · split at h <;> simp at h
        · simp at h

theorem nextValue_length {first : Bool} {s r : Bytes} (h : nextValue first s = .ok (.item r)) :
    r.length ≤ s.length := by
  have space := skipSpace_length s
  unfold nextValue at h
  split at h
  · simp at h
  · rename_i b t eq
    rw [eq] at space; simp only [List.length_cons] at space
    split at h
    · simp at h
    · split at h
      · simp only [Except.ok.injEq, Next.item.injEq] at h; rw [← h]
        simp only [List.length_cons]; omega
      · split at h
        · have space' := skipSpace_length t
          split at h
          · simp at h
          · rename_i eq'
            rw [eq'] at space'; simp only [List.length_cons] at space'
            split at h
            · simp at h
            · simp only [Except.ok.injEq, Next.item.injEq] at h; rw [← h]
              simp only [List.length_cons]; omega
        · simp at h

theorem readColon_length {s r : Bytes} (h : readColon s = .ok r) : r.length < s.length := by
  have space := skipSpace_length s
  unfold readColon at h
  split at h
  · simp at h
  · rename_i eq
    rw [eq] at space; simp only [List.length_cons] at space
    split at h
    · simp only [Except.ok.injEq] at h; rw [← h]; omega
    · simp at h

theorem Draft.read?_length {key : String} {s r : Bytes} {cs : List Column} {draft d : Draft cs}
    (h : Draft.read? key s cs draft = some (.ok (d, r))) : r.length ≤ s.length := by
  induction cs with
  | nil => exact absurd (show none = some (Except.ok (d, r)) from h) (by simp)
  | cons c cs ih =>
    obtain ⟨value, draft⟩ := draft
    change (if key = c.name then _ else Option.map _ (Draft.read? key s cs draft)) = _ at h
    split at h
    · simp only [Option.some.injEq] at h
      split at h
      · simp at h
      · split at h
        · simp at h
        · rename_i colon
          have := readColon_length colon
          split at h
          · simp at h
          · rename_i value
            have := c.scalar.read_length value
            have rest := congrArg Prod.snd (Except.ok.inj h)
            dsimp only at rest
            rw [← rest]; omega
    · cases found : Draft.read? key s cs draft with
      | none => simp [found] at h
      | some outcome =>
        rw [found] at h
        obtain ⟨⟨d', u⟩, read, pair⟩ := ok_of_map (Option.some.inj h)
        have rest := congrArg Prod.snd pair
        dsimp only at rest
        subst rest
        exact ih (read ▸ found)

theorem skip_length {e : Expecting} {frames : List Frame} {s r : Bytes}
    (h : skip e frames s = .ok r) : r.length ≤ s.length := by
  fun_induction skip e frames s <;> grind [skipSpace_length, → skipKey_length, → skipScalar_length]

/-- The members of an object from a place on, after the fields in `draft`. -/
def readMembers (shape : Shape α) (first : Bool) (draft : Draft shape.columns) (s : Bytes) :
    Outcome α :=
  match _next : nextKey first s with
  | .error f => .error f
  | .ok (.closed r) =>
    match Draft.finish shape.columns draft with
    | .error cause => .error ⟨cause, r⟩
    | .ok row => .ok (shape.build row, r)
  | .ok (.item r) =>
    match _key : readText r with
    | .error f => .error f
    | .ok (key, r) =>
      match _found : Draft.read? key r shape.columns draft with
      | some (.error f) => .error f
      | some (.ok (draft, r)) => readMembers shape false draft r
      | none =>
        if shape.strict then .error ⟨.unknown key shape.keys, pastKey r⟩
        else
          match _colon : readColon r with
          | .error f => .error f
          | .ok r =>
            match _skip : skipValue r with
            | .error f => .error f
            | .ok r => readMembers shape false draft r
termination_by s.length
decreasing_by
  · have := nextKey_length _next; have := readText_length _key
    have := Draft.read?_length _found; omega
  · have := nextKey_length _next; have := readText_length _key
    have := readColon_length _colon; have := skip_length _skip; omega

/-- The values of a list from a place on, one for each field, the first having number `index`. -/
def readValues (expected : String) : (cs : List Column) → (index : Nat) → Bytes → Outcome (Row cs)
  | [], _, s => (endList s).map fun r => ((), r)
  | c :: cs, index, s =>
    match nextValue (index == 0) s with
    | .error f => .error f
    | .ok (.closed r) => .error ⟨.tooShort index expected, r⟩
    | .ok (.item r) =>
      match c.scalar.read r with
      | .error f => .error f
      | .ok (value, r) =>
        (readValues expected cs (index + 1) r).map fun (row, r) => ((value, row), r)

def Shape.expected (shape : Shape α) : String := s!"struct {shape.name}"

def Shape.expectedValues (shape : Shape α) : String :=
  let n := shape.columns.length
  s!"struct {shape.name} with {n} element" ++ if n = 1 then "" else "s"

/-- Reads a record. -/
def Shape.read (shape : Shape α) (s : Bytes) : Outcome α :=
  match skipSpace s with
  | [] => .error ⟨.endInValue, []⟩
  | b :: r =>
    if b = ascii '\x7b' then readMembers shape true (Draft.empty shape.columns) r
    else if b = ascii '[' then
      (readValues shape.expectedValues shape.columns 0 r).map fun (row, r) => (shape.build row, r)
    else .error (mismatch shape.expected b r)

theorem endList_length {s r : Bytes} (h : endList s = .ok r) : r.length < s.length := by
  have space := skipSpace_length s
  unfold endList at h
  split at h
  · simp at h
  · rename_i eq
    rw [eq] at space; simp only [List.length_cons] at space
    split at h
    · simp only [Except.ok.injEq] at h; rw [← h]; omega
    · split at h
      · split at h <;> simp at h
      · simp at h

theorem nextKey_closed_length {first : Bool} {s r : Bytes}
    (h : nextKey first s = .ok (.closed r)) : r.length < s.length := by
  have space := skipSpace_length s
  unfold nextKey at h
  split at h
  · simp at h
  · rename_i eq
    rw [eq] at space; simp only [List.length_cons] at space
    split at h
    · simp only [Except.ok.injEq, Next.closed.injEq] at h; rw [← h]; omega
    · split at h
      · split at h <;> simp at h
      · split at h
        · split at h
          · simp at h
          · split at h
            · simp at h
            · split at h <;> simp at h
        · simp at h

theorem readMembers_length {shape : Shape α} {first : Bool} {draft : Draft shape.columns}
    {s r : Bytes} {a : α} (h : readMembers shape first draft s = .ok (a, r)) :
    r.length < s.length := by
  fun_induction readMembers shape first draft s with
  | case3 => cases h; exact nextKey_closed_length ‹_›
  | case6 _ _ _ _ next _ _ key _ _ found ih =>
    have := ih h; have := nextKey_length next; have := readText_length key
    have := Draft.read?_length found; omega
  | case10 _ _ _ _ next _ _ key _ _ _ colon _ skipped ih =>
    have := ih h; have := nextKey_length next; have := readText_length key
    have := readColon_length colon; have := skip_length skipped; omega
  | _ => simp at h

theorem readValues_length {expected : String} {cs : List Column} {i : Nat} {s r : Bytes}
    {row : Row cs} (h : readValues expected cs i s = .ok (row, r)) : r.length < s.length := by
  induction cs generalizing i s with
  | nil =>
    obtain ⟨u, read, pair⟩ := ok_of_map h
    cases pair; exact endList_length read
  | cons c cs ih =>
    unfold readValues at h
    split at h
    · simp at h
    · simp at h
    · rename_i next
      have := nextValue_length next
      split at h
      · simp at h
      · rename_i value
        have := c.scalar.read_length value
        obtain ⟨⟨row', u⟩, read, pair⟩ := ok_of_map h
        have rest := congrArg Prod.snd pair
        dsimp only at rest
        subst rest
        have := ih read; omega

theorem Shape.read_length {shape : Shape α} {s r : Bytes} {a : α}
    (h : shape.read s = .ok (a, r)) : r.length < s.length := by
  have space := skipSpace_length s
  unfold Shape.read at h
  split at h
  · simp at h
  · rename_i eq
    rw [eq] at space; simp only [List.length_cons] at space
    split at h
    · have := readMembers_length h; omega
    · split at h
      · obtain ⟨⟨row, u⟩, read, pair⟩ := ok_of_map h
        have := readValues_length read
        cases pair; omega
      · simp at h

/-- The records of a list from a place on, after those already `done`, in reverse. -/
def readRecords (shape : Shape α) (done : List α) (s : Bytes) : Outcome (List α) :=
  match _next : nextValue done.isEmpty s with
  | .error f => .error f
  | .ok (.closed r) => .ok (done.reverse, r)
  | .ok (.item r) =>
    match _read : shape.read r with
    | .error f => .error f
    | .ok (a, r) => readRecords shape (a :: done) r
termination_by s.length
decreasing_by have := nextValue_length _next; have := Shape.read_length _read; omega

/-- Reads a list of records. -/
def Shape.readList (shape : Shape α) (s : Bytes) : Outcome (List α) :=
  match skipSpace s with
  | [] => .error ⟨.endInValue, []⟩
  | b :: r =>
    if b = ascii '[' then readRecords shape [] r
    else .error (mismatch "a sequence" b r)

/-- The value that a whole text holds, white space around it allowed. -/
def whole (read : Bytes → Outcome α) (s : Bytes) : Except Located α :=
  match read s with
  | .error f => .error (f.locate s)
  | .ok (a, r) =>
    match skipSpace r with
    | [] => .ok a
    | _ :: t => .error (Fault.locate s ⟨.trailingText, t⟩)

end MetricLedger.Json
