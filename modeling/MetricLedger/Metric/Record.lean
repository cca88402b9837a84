import MetricLedger.Json.Shape
import MetricLedger.Json.Value
import MetricLedger.Metric.Measurement

/-!
# Records

A record is a measurement as it is stored: with an identifier and the time of its recording. Records
are written and read as JSON objects; members that are no fields of a record are passed over.
-/

namespace MetricLedger

structure Record where
  id : Uuid
  name : String
  type : String
  value : Double
  createdAt : Instant
deriving DecidableEq, Repr

/-- What a new record is marked with: a fresh identifier and the time. -/
structure Stamp where
  id : Uuid
  time : Instant
deriving DecidableEq, Repr

namespace Record

def ofMeasurement (m : Measurement) (stamp : Stamp) : Record :=
  ⟨stamp.id, m.name, m.type, m.value, stamp.time⟩

def measurement (r : Record) : Measurement := ⟨r.name, r.type, r.value⟩

/-- Equality of records whose values are compared as numbers. -/
def equals (a b : Record) : Bool :=
  a.id == b.id && a.name == b.name && a.type == b.type && a.value.equals b.value
    && a.createdAt == b.createdAt

def shape : Json.Shape Record where
  name := "SystemMetric"
  columns := [Json.column "id" Uuid, Json.column "metric_name" String,
    Json.column "metric_type" String, Json.column "value" Double,
    Json.column "created_at" Instant]
  strict := false
  build := fun (id, name, type, value, createdAt, ()) => ⟨id, name, type, value, createdAt⟩

def toJson (r : Record) : Json.Value :=
  .object [("id", .text r.id.text), ("metric_name", .text r.name), ("metric_type", .text r.type),
    ("value", .number r.value), ("created_at", .text r.createdAt.text)]

def listJson (rs : List Record) : Json.Value := .list (rs.map toJson)

@[simp] theorem measurement_ofMeasurement (m : Measurement) (stamp : Stamp) :
    (ofMeasurement m stamp).measurement = m := rfl

end Record

end MetricLedger
