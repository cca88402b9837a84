import MetricLedger.Failure.Store
import MetricLedger.Http.Status
import MetricLedger.Json.Fault
import MetricLedger.Json.Value
import MetricLedger.Metric.Measurement

/-!
# Failures

Everything that recording and querying can refuse or fail at, by cause. Each failure has a text, a
code that clients can rely on, and the status of the answer that reports it.
-/

namespace MetricLedger

/-- Why a request is refused. -/
inductive RequestFault
  | malformed (located : Json.Located)
  | flaw (flaw : Measurement.Flaw)
  | repeatedParameter (name : String)
  | brokenBody (text : String)
  | other (text : String)
deriving DecidableEq, Repr

def RequestFault.message : RequestFault → String
  | .malformed located => s!"malformed metric payload: {located.message}"
  | .flaw f => f.message
  | .repeatedParameter name => s!"Failed to deserialize query string: duplicate field `{name}`"
  | .brokenBody text => s!"Failed to buffer the request body: {text}"
  | .other text => text

/-- What is larger than it may be. -/
inductive Excess
  | body
  | other (text : String)
deriving DecidableEq, Repr

def Excess.message : Excess → String
  | .body => "Failed to buffer the request body: length limit exceeded"
  | .other text => text

inductive ConfigFault
  | blankUrl
  | noConnections
  | badAddress
  | other (text : String)
deriving DecidableEq, Repr

def ConfigFault.message : ConfigFault → String
  | .blankUrl => "database URL must not be empty"
  | .noConnections => "max_connections must be at least 1"
  | .badAddress => "Invalid bind address: invalid socket address syntax"
  | .other text => text

inductive ServerFault
  | bind (fault : IoFault)
  | other (text : String)
deriving DecidableEq, Repr

def ServerFault.message : ServerFault → String
  | .bind fault => s!"Failed to bind to address: {fault.message}"
  | .other text => text

inductive Failure
  | invalid (fault : RequestFault)
  | tooLarge (excess : Excess)
  | persistence (fault : StoreFault)
  | config (fault : ConfigFault)
  | server (fault : ServerFault)
  | io (fault : IoFault)
deriving DecidableEq, Repr

namespace Failure

def message : Failure → String
  | .invalid fault => s!"Invalid request: {fault.message}"
  | .tooLarge excess => s!"Payload too large: {excess.message}"
  | .persistence fault => s!"Persistence error: {fault.message}"
  | .config fault => s!"Configuration error: {fault.message}"
  | .server fault => s!"Web server error: {fault.message}"
  | .io fault => s!"I/O error: {fault.message}"

/-- The code that an answer carries. -/
def code : Failure → String
  | .invalid _ => "INVALID_REQUEST"
  | .tooLarge _ => "PAYLOAD_TOO_LARGE"
  | .persistence _ => "PERSISTENCE"
  | .config _ => "CONFIG"
  | .server _ | .io _ => "INTERNAL"

def status : Failure → Http.Status
  | .invalid _ => .badRequest
  | .tooLarge _ => .payloadTooLarge
  | _ => .internalError

/-- The texts of what lies beneath a failure, the nearest first. -/
def causes : Failure → List String
  | .persistence fault => fault.message :: fault.causes
  | .io fault => [fault.message]
  | _ => []

def toJson (f : Failure) : Json.Value :=
  .object [("error", .text f.code), ("message", .text f.message)]

end Failure

end MetricLedger
