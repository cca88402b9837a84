import MetricLedger.Log.Event

/-!
# Parts of the service

The names under which the parts of the service write to the log.
-/

namespace MetricLedger.Service

/-- The name of the program and of its outermost part. -/
def programName : String := "health_metrics"

/-- How the service shows itself; what it holds is not told. -/
def shownAs : String := "MetricService \x7b .. \x7d"

def web : String := s!"{programName}::web"
def repository : String := s!"{programName}::metrics::repository"
def sampler : String := s!"{programName}::metrics::sampler"

def info (target message : String) : Log.Event := { level := .info, target, message }
def warn (target message : String) : Log.Event := { level := .warn, target, message }
def debug (target message : String) : Log.Event := { level := .debug, target, message }

end MetricLedger.Service
