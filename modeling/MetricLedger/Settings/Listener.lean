import MetricLedger.Failure.Basic
import MetricLedger.Json.Shape
import MetricLedger.Net.Address

/-!
# Settings of the listener

Where the service listens, whether it answers cross-origin callers, and how often it records samples
of the host, if at all.
-/

namespace MetricLedger.Settings

def defaultPort : UInt16 := 8080

structure Listener where
  host : String := "0.0.0.0"
  port : UInt16 := defaultPort
  enableCors : Bool := true
  /-- Milliseconds between samples; none are taken without it. -/
  sampleInterval : Option UInt64 := none
deriving DecidableEq, Repr

namespace Listener

instance : Inhabited Listener := ⟨{}⟩

def withHost (l : Listener) (host : String) : Listener := { l with host }

def withPort (l : Listener) (port : UInt16) : Listener := { l with port }

def withCors (l : Listener) (enableCors : Bool) : Listener := { l with enableCors }

/-- An interval of zero turns sampling off. -/
def withSampleInterval (l : Listener) (interval : Option UInt64) : Listener :=
  { l with sampleInterval := interval.filter (0 < ·) }

/-- Host and port as they were given. -/
def bindAddress (l : Listener) : String :=
  String.ofList (l.host.toList ++ Net.portChars l.port)

/-- The address to listen on; the host must be an IP address. -/
def socketAddress (l : Listener) : Except Failure Net.SocketAddress :=
  match Net.SocketAddress.parse? l.bindAddress.toList with
  | some a => .ok a
  | none => .error (.config .badAddress)

def shape : Json.Shape Listener where
  name := "WebConfig"
  columns := [Json.column "host" String, Json.column "port" UInt16,
    Json.column "enable_cors" Bool, Json.column "sample_interval_ms" (Option UInt64)]
  strict := false
  build := fun (host, port, enableCors, sampleInterval, ()) =>
    ⟨host, port, enableCors, sampleInterval⟩

def toJson (l : Listener) : Json.Value :=
  let interval := match l.sampleInterval with
    | some n => .natural n.toNat
    | none => .null
  .object [("host", .text l.host), ("port", .natural l.port.toNat),
    ("enable_cors", .flag l.enableCors), ("sample_interval_ms", interval)]

def ofJson (s : Bytes) : Except Json.Located Listener := Json.whole shape.read s

end Listener

end MetricLedger.Settings
