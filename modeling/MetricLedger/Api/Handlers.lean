import MetricLedger.Failure.Basic
import MetricLedger.Http.Form
import MetricLedger.Http.Message
import MetricLedger.Metric.Store
import MetricLedger.Metric.Submission

/-!
# Recording and listing over HTTP

The two things clients can do: record one measurement, and list records, all of them or those of
one name. A request that is not in order is refused before the store is asked.
-/

namespace MetricLedger

def Failure.answer (f : Failure) : Http.Answer := .json f.status f.toJson

namespace Api

/-- The most bytes that a body may have. -/
def bodyLimit : Nat := 2097152

/-- The submission that the bytes of a body are. -/
def submissionOf (bytes : Bytes) : Except Failure Submission :=
  (Submission.ofJson bytes).mapError fun located => .invalid (.malformed located)

/-- The measurement that a body asks to record. -/
def measurementOf (body : Http.Body) : Except Failure Measurement :=
  match body.read bodyLimit with
  | .error .tooLarge => .error (.tooLarge .body)
  | .error (.broken text) => .error (.invalid (.brokenBody text))
  | .ok bytes =>
    match submissionOf bytes with
    | .error f => .error f
    | .ok submission => submission.measurement.check.mapError fun flaw => .invalid (.flaw flaw)

/-- Records the measurement in a body. -/
def create (store : Store σ) (stamp : Stamp) (body : Http.Body) (s : σ) : Http.Answer × σ :=
  match measurementOf body with
  | .error f => (f.answer, s)
  | .ok m =>
    match store.create stamp m s with
    | (.error f, s) => ((Failure.persistence f).answer, s)
    | (.ok r, s) => (.json .created r.toJson, s)

/-- Which records a query asks for: those of one name, or all. -/
def selection (query : Bytes) : Except Failure (Option String) :=
  match Http.Form.values "metric_name" query with
  | [] => .ok none
  | [name] => if Text.isBlank name then .error (.invalid (.flaw .blankName)) else .ok (some name)
  | _ => .error (.invalid (.repeatedParameter "metric_name"))

/-- The records that are asked for. -/
def find (store : Store σ ε) (name : Option String) (s : σ) : Except ε (List Record) × σ :=
  match name with
  | some name => store.named name s
  | none => store.all s

/-- Lists the records that a query asks for. -/
def list (store : Store σ) (query : Bytes) (s : σ) : Http.Answer × σ :=
  match selection query with
  | .error f => (f.answer, s)
  | .ok name =>
    match find store name s with
    | (.error f, s) => ((Failure.persistence f).answer, s)
    | (.ok rs, s) => (.json .ok (Record.listJson rs), s)

end Api

end MetricLedger
