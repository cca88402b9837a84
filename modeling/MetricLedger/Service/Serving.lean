import MetricLedger.Api.Routes
import MetricLedger.Sampling.Recorder
import MetricLedger.Service.Environment

/-!
# Serving

The service listens on the address of its settings and then runs until it is stopped. While it runs
it records samples of the host, if the settings say so.
-/

namespace MetricLedger.Service

def endpointEvents (a : Net.SocketAddress) : List Log.Event :=
  [info web s!"Starting health metrics server on http://{a.text}",
    info web s!"API endpoint: http://{a.text}{Api.mountPoint}{Api.metricsPath}"]

def samplingEvents (l : Settings.Listener) : List Log.Event :=
  match l.sampleInterval with
  | some n => [info web s!"Recording host samples every {n.toNat}ms"]
  | none => []

/-- Starts listening. Without a failure the service runs on. -/
def start (env : Environment σ) (l : Settings.Listener) : List Log.Event × Except Failure Unit :=
  match l.socketAddress with
  | .error f => ([], .error f)
  | .ok a =>
    match env.listen a with
    | .error errno => (endpointEvents a, .error (.server (.bind (.system errno))))
    | .ok () => (endpointEvents a ++ samplingEvents l, .ok ())

/-- What is logged when a measurement of the host was recorded, or was not. -/
def attemptEvents (a : Sampling.Attempt) : List Log.Event :=
  match a.result with
  | .ok _ => []
  | .error f =>
    [warn sampler
      s!"Failed to record host metric {a.measurement.name}: {(Failure.persistence f).message}"]

/-- What is logged for one sample of the host. -/
def sampleEvents (attempts : List Sampling.Attempt) : List Log.Event :=
  attempts.flatMap attemptEvents ++ [debug sampler "Recorded host sample"]

end MetricLedger.Service
