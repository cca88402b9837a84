import MetricLedger.Json.Shape
import MetricLedger.Json.Value
import MetricLedger.Metric.Measurement

/-!
# Submissions

A submission is what a client sends to have a measurement recorded. It has all three fields and no
others.
-/

namespace MetricLedger

structure Submission where
  name : String
  type : String
  value : Double
deriving DecidableEq, Repr

namespace Submission

def shape : Json.Shape Submission where
  name := "CreateSystemMetricRequest"
  columns := [Json.column "metric_name" String, Json.column "metric_type" String,
    Json.column "value" Double]
  strict := true
  build := fun (name, type, value, ()) => ⟨name, type, value⟩

def ofJson (body : Bytes) : Except Json.Located Submission := Json.whole shape.read body

def toJson (s : Submission) : Json.Value :=
  .object [("metric_name", .text s.name), ("metric_type", .text s.type),
    ("value", .number s.value)]

def measurement (s : Submission) : Measurement := ⟨s.name, s.type, s.value⟩

end Submission

end MetricLedger
