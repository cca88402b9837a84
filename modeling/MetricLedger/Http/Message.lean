import MetricLedger.Http.Method
import MetricLedger.Http.Status
import MetricLedger.Http.Target
import MetricLedger.Json.Value

/-!
# Requests and answers

A request body arrives in chunks and may break off. An answer's body is JSON text or nothing.
-/

namespace MetricLedger.Http

structure Header where
  name : String
  value : String
deriving DecidableEq, Repr

/-- Why a header cannot be sent. -/
inductive Header.Fault
  | badName
  | badValue
deriving DecidableEq, Repr

def Header.Fault.message : Header.Fault → String
  | .badName => "invalid HTTP header name"
  | .badValue => "failed to parse header value"

/-- A header value has no control characters but tabs. -/
def isHeaderValue (s : String) : Bool :=
  s.toList.all fun c => (0x20 ≤ c.toNat && c.toNat != 0x7F) || c == '\t'

def Header.check (h : Header) : Except Header.Fault Header :=
  if !isToken h.name then .error .badName
  else if !isHeaderValue h.value then .error .badValue
  else .ok h

/-- A streamed body: its chunks, and why the stream broke after them, if it did. -/
structure Body where
  chunks : List Bytes
  broken : Option String
deriving DecidableEq, Repr

def Body.ofBytes (s : Bytes) : Body := ⟨[s], none⟩

inductive Body.Fault
  | tooLarge
  | broken (text : String)
deriving DecidableEq, Repr

/-- Gathers chunks as they arrive, `room` being the number of bytes that may still come. -/
def Body.gather (broken : Option String) (room : Nat) (done : List Bytes) :
    List Bytes → Except Body.Fault Bytes
  | [] =>
    match broken with
    | some text => .error (.broken text)
    | none => .ok done.reverse.flatten
  | chunk :: chunks =>
    if room < chunk.length then .error .tooLarge
    else gather broken (room - chunk.length) (chunk :: done) chunks

/-- The whole body, unless it is larger than `limit` or breaks before it is. -/
def Body.read (limit : Nat) (b : Body) : Except Body.Fault Bytes :=
  gather b.broken limit [] b.chunks

theorem Body.gather_eq_ok_iff {broken : Option String} {room : Nat} {done chunks : List Bytes}
    {bytes : Bytes} : gather broken room done chunks = .ok bytes ↔
      broken = none ∧ chunks.flatten.length ≤ room ∧
        bytes = done.reverse.flatten ++ chunks.flatten := by
  induction chunks generalizing room done with
  | nil => cases broken <;> simp [gather, eq_comm]
  | cons chunk chunks ih =>
    unfold gather
    split
    · simp only [reduceCtorEq, List.flatten_cons, List.length_append, false_iff]
      omega
    · rw [ih]
      simp only [List.reverse_cons, List.flatten_append, List.flatten_cons, List.flatten_nil,
        List.append_nil, List.append_assoc, List.length_append]
      refine and_congr_right fun _ => and_congr_left fun _ => ?_
      omega

/-- A body is read when it is unbroken and within the limit; its chunks do not show. -/
theorem Body.read_eq_ok_iff {limit : Nat} {b : Body} {bytes : Bytes} :
    b.read limit = .ok bytes ↔
      b.broken = none ∧ b.chunks.flatten.length ≤ limit ∧ bytes = b.chunks.flatten := by
  simp [read, gather_eq_ok_iff]

structure Request where
  method : Method
  target : Target
  headers : List Header
  body : Body
deriving DecidableEq, Repr

structure Answer where
  status : Status
  headers : List Header
  body : String
deriving DecidableEq, Repr

namespace Answer

def contentLength (body : String) : Header := ⟨"content-length", toString (Text.byteLength body)⟩

def json (status : Status) (v : Json.Value) : Answer :=
  ⟨status, [⟨"content-type", "application/json"⟩, contentLength v.compact], v.compact⟩

def empty (status : Status) (headers : List Header) : Answer :=
  ⟨status, headers ++ [contentLength ""], ""⟩

/-- The answer without its body, whose length stays in the headers. -/
def withoutBody (a : Answer) : Answer := { a with body := "" }

def withHeaders (a : Answer) (headers : List Header) : Answer :=
  { a with headers := headers ++ a.headers }

end Answer

end MetricLedger.Http
