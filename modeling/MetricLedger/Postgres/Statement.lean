import MetricLedger.Metric.Record

/-!
# Statements

The statements that the service sends to a database. Their texts are fixed: what is recorded or
asked for travels in the parameters, never in the text. Times go at whole microseconds.
-/

namespace MetricLedger.Postgres

inductive SqlType
  | uuid
  | text
  | double
  | timestamp
  | other (name : String)
deriving DecidableEq, Repr

namespace SqlType

def name : SqlType → String
  | .uuid => "UUID"
  | .text => "TEXT"
  | .double => "FLOAT8"
  | .timestamp => "TIMESTAMPTZ"
  | .other name => name

/-- The types of texts. -/
def isText : SqlType → Bool
  | .text => true
  | .other name => ["VARCHAR", "CHAR", "NAME", "UNKNOWN", "citext"].contains name
  | .uuid | .double | .timestamp => false

end SqlType

/-- A parameter of a statement, or what a cell holds. Times are counted from 1970. A value of any
other type is the text it is sent as. -/
inductive Value
  | uuid (id : Uuid)
  | text (s : String)
  | double (x : Double)
  | timestamp (micros : Int)
  | other (type s : String)
deriving DecidableEq, Repr

def Value.type : Value → SqlType
  | .uuid _ => .uuid
  | .text _ => .text
  | .double _ => .double
  | .timestamp _ => .timestamp
  | .other type _ => .other type

inductive Statement
  | createTable
  | createIndex
  | insert (r : Record)
  | selectNamed (name : String)
  | selectAll
deriving DecidableEq, Repr

namespace Statement

def sql : Statement → String
  | .createTable => "
CREATE TABLE IF NOT EXISTS system_metrics (
    id          UUID PRIMARY KEY,
    metric_name TEXT NOT NULL,
    metric_type TEXT NOT NULL,
    value       DOUBLE PRECISION NOT NULL,
    created_at  TIMESTAMPTZ NOT NULL DEFAULT now()
)"
  | .createIndex =>
    "CREATE INDEX IF NOT EXISTS idx_system_metrics_metric_name ON system_metrics (metric_name)"
  | .insert _ =>
    "INSERT INTO system_metrics (id, metric_name, metric_type, value, created_at) " ++
      "VALUES ($1, $2, $3, $4, $5) RETURNING id, metric_name, metric_type, value, created_at"
  | .selectNamed _ =>
    "SELECT id, metric_name, metric_type, value, created_at FROM system_metrics " ++
      "WHERE metric_name = $1 ORDER BY created_at, id"
  | .selectAll =>
    "SELECT id, metric_name, metric_type, value, created_at FROM system_metrics " ++
      "ORDER BY created_at, id"

def parameters : Statement → List Value
  | .insert r =>
    [.uuid r.id, .text r.name, .text r.type, .double r.value, .timestamp r.createdAt.micros]
  | .selectNamed name => [.text name]
  | .createTable | .createIndex | .selectAll => []

end Statement

end MetricLedger.Postgres
