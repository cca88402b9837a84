import MetricLedger.Json.Reader

/-!
# Skipping values

A member that nobody asked for is passed over: its structure is checked, to any depth, but its
texts are not decoded and its numbers not computed.
-/

namespace MetricLedger.Json

def skipEscape : Bytes → Except Fault Bytes
  | [] => .error ⟨.endInText, []⟩
  | b :: s =>
    if (shortEscape? b).isSome then .ok s
    else if b = ascii 'u' then (readQuad s).map Prod.snd
    else .error ⟨.badEscape, s⟩

theorem skipEscape_length {s r : Bytes} (h : skipEscape s = .ok r) : r.length < s.length := by
  unfold skipEscape at h
  split at h
  · simp at h
  · split at h
    · simp_all
    · split at h
      · cases quad : readQuad ‹_› with
        | error => simp [quad, Except.map] at h
        | ok pair =>
          have := readQuad_length (n := pair.1) (r := pair.2) quad
          simp [quad, Except.map] at h
          simp only [List.length_cons, ← h]; omega
      · simp at h

/-- A text whose opening quote has been read. -/
def skipText : Bytes → Except Fault Bytes
  | [] => .error ⟨.endInText, []⟩
  | b :: s =>
    if b = ascii '"' then .ok s
    else if b = ascii '\\' then
      match _esc : skipEscape s with
      | .error f => .error f
      | .ok r => skipText r
    else if b < 0x20 then .error ⟨.controlCharacter, b :: s⟩
    else skipText s
termination_by s => s.length
decreasing_by
  · have := skipEscape_length _esc; simp only [List.length_cons]; omega
  · simp

theorem skipText_length {s r : Bytes} (h : skipText s = .ok r) : r.length < s.length := by
  fun_induction skipText s with
  | case1 => simp at h
  | case2 => simp_all
  | case3 => simp at h
  | case4 _ _ esc _ ih =>
    have := ih h; have := skipEscape_length esc; simp only [List.length_cons]; omega
  | case5 => simp at h
  | case6 _ _ _ _ _ ih => have := ih h; simp only [List.length_cons]; omega

def afterSign : Bytes → Bytes
  | [] => []
  | b :: s => if b = ascii '+' ∨ b = ascii '-' then s else b :: s

/-- The sign and the digits of an exponent. -/
def skipExponent (s : Bytes) : Except Fault Bytes :=
  if startsDigit (afterSign s) then .ok ((afterSign s).dropWhile isDigit)
  else .error ⟨.badNumber, (afterSign s).tail⟩

def skipScale (s : Bytes) : Except Fault Bytes :=
  match s with
  | b :: r => if b = ascii 'e' ∨ b = ascii 'E' then skipExponent r else .ok s
  | [] => .ok []

def skipAfterWhole (s : Bytes) : Except Fault Bytes :=
  match s with
  | b :: r =>
    if b = ascii '.' then
      if startsDigit r then skipScale (r.dropWhile isDigit) else .error ⟨.badNumber, r.tail⟩
    else skipScale s
  | [] => .ok []

/-- A number whose sign has been read. -/
def skipNumber : Bytes → Except Fault Bytes
  | [] => .error ⟨.badNumber, []⟩
  | b :: s =>
    if b = ascii '0' then
      if startsDigit s then .error ⟨.badNumber, s.tail⟩ else skipAfterWhole s
    else if isDigit b then skipAfterWhole (s.dropWhile isDigit)
    else .error ⟨.badNumber, s⟩

theorem skipExponent_length {s r : Bytes} (h : skipExponent s = .ok r) :
    r.length ≤ s.length := by
  have sign : (afterSign s).length ≤ s.length := by
    unfold afterSign; split
    · simp
    · split <;> simp
  have := dropDigits_length (afterSign s)
  unfold skipExponent at h
  split at h
  · simp only [Except.ok.injEq] at h; rw [← h]; omega
  · simp at h

theorem skipScale_length {s r : Bytes} (h : skipScale s = .ok r) : r.length ≤ s.length := by
  unfold skipScale at h
  split at h
  · split at h
    · have := skipExponent_length h; simp only [List.length_cons]; omega
    · simp_all
  · simp_all

theorem skipAfterWhole_length {s r : Bytes} (h : skipAfterWhole s = .ok r) :
    r.length ≤ s.length := by
  unfold skipAfterWhole at h
  split at h
  · split at h
    · split at h
      · rename_i t _ _
        have := skipScale_length h; have := dropDigits_length t
        simp only [List.length_cons]; omega
      · simp at h
    · exact skipScale_length h
  · simp_all

theorem skipNumber_length {s r : Bytes} (h : skipNumber s = .ok r) : r.length < s.length := by
  unfold skipNumber at h
  split at h
  · simp at h
  · rename_i b s
    split at h
    · split at h
      · simp at h
      · have := skipAfterWhole_length h; simp only [List.length_cons]; omega
    · split at h
      · have := skipAfterWhole_length h; have := dropDigits_length s
        simp only [List.length_cons]; omega
      · simp at h

/-- A value that holds no other value. -/
def skipScalar (b : UInt8) (s : Bytes) : Except Fault Bytes :=
  if b = ascii 'n' then readWord [ascii 'u', ascii 'l', ascii 'l'] s
  else if b = ascii 't' then readWord [ascii 'r', ascii 'u', ascii 'e'] s
  else if b = ascii 'f' then readWord [ascii 'a', ascii 'l', ascii 's', ascii 'e'] s
  else if b = ascii '"' then skipText s
  else if b = ascii '-' then skipNumber s
  else if isDigit b then skipNumber (b :: s)
  else .error ⟨.wantsValue, s⟩

theorem skipScalar_length {b : UInt8} {s r : Bytes} (h : skipScalar b s = .ok r) :
    r.length ≤ s.length := by
  unfold skipScalar at h
  split at h
  · exact readWord_length h
  · split at h
    · exact readWord_length h
    · split at h
      · exact readWord_length h
      · split at h
        · have := skipText_length h; omega
        · split at h
          · have := skipNumber_length h; omega
          · split at h
            · have := skipNumber_length h; simp only [List.length_cons] at this; omega
            · simp at h

/-- A bracket that is still open. -/
inductive Frame
  | list
  | object
deriving DecidableEq, Repr

/-- What must come next while values are skipped. -/
inductive Expecting
  | value
  | key
  | afterValue

/-- A key and its colon. -/
def skipKey (s : Bytes) : Except Fault Bytes :=
  match skipSpace s with
  | [] => .error ⟨.endInObject, []⟩
  | b :: r =>
    if b ≠ ascii '"' then .error ⟨.wantsKey, r⟩
    else match skipText r with
      | .error f => .error f
      | .ok r =>
        match skipSpace r with
        | [] => .error ⟨.endInObject, []⟩
        | b :: r => if b = ascii ':' then .ok r else .error ⟨.wantsColon, r⟩

theorem skipKey_length {s r : Bytes} (h : skipKey s = .ok r) : r.length < s.length := by
  have space := skipSpace_length s
  unfold skipKey at h
  split at h
  · simp at h
  · rename_i b t eq
    rw [eq] at space; simp only [List.length_cons] at space
    split at h
    · simp at h
    · split at h
      · simp at h
      · rename_i u text
        have := skipText_length text
        have space' := skipSpace_length u
        split at h
        · simp at h
        · rename_i c v eq'
          rw [eq'] at space'; simp only [List.length_cons] at space'
          split at h
          · simp only [Except.ok.injEq] at h; rw [← h]; omega
          · simp at h

/-- Skips up to the end of the outermost value, inside the brackets that are `frames`. -/
def skip (expecting : Expecting) (frames : List Frame) (s : Bytes) : Except Fault Bytes :=
  match expecting, frames with
  | .afterValue, [] => .ok s
  | .afterValue, .list :: outer =>
    match _eq : skipSpace s with
    | [] => .error ⟨.endInList, []⟩
    | b :: r =>
      if b = ascii ',' then skip .value (.list :: outer) r
      else if b = ascii ']' then skip .afterValue outer r
      else .error ⟨.wantsListEnd, r⟩
  | .afterValue, .object :: outer =>
    match _eq : skipSpace s with
    | [] => .error ⟨.endInObject, []⟩
    | b :: r =>
      if b = ascii ',' then skip .key (.object :: outer) r
      else if b = ascii '\x7d' then skip .afterValue outer r
      else .error ⟨.wantsObjectEnd, r⟩
  | .key, _ =>
    match _eq : skipKey s with
    | .error f => .error f
    | .ok r => skip .value frames r
  | .value, _ =>
    match _eq : skipSpace s with
    | [] => .error ⟨.endInValue, []⟩
    | b :: r =>
      if b = ascii '[' then
        match _eq' : skipSpace r with
        | [] => .error ⟨.endInList, []⟩
        | c :: t =>
          if c = ascii ']' then skip .afterValue frames t else skip .value (.list :: frames) r
      else if b = ascii '\x7b' then
        match _eq' : skipSpace r with
        | [] => .error ⟨.endInObject, []⟩
        | c :: t =>
          if c = ascii '\x7d' then skip .afterValue frames t else skip .key (.object :: frames) r
      else
        match _eq' : skipScalar b r with
        | .error f => .error f
        | .ok t => skip .afterValue frames t
termination_by s.length
decreasing_by
  all_goals
    first
    | (have used := skipKey_length _eq; omega)
    | (have shorter := skipSpace_length s
       rw [_eq] at shorter
       simp only [List.length_cons] at shorter
       first
       | omega
       | (have used := skipScalar_length _eq'; omega)
       | (have shorter' := skipSpace_length r
          rw [_eq'] at shorter'
          simp only [List.length_cons] at shorter'
          omega))

/-- One value of any kind. -/
def skipValue (s : Bytes) : Except Fault Bytes := skip .value [] s

end MetricLedger.Json
