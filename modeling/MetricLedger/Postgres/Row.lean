import MetricLedger.Failure.Halt
import MetricLedger.Failure.Store
import MetricLedger.Postgres.Statement

/-!
# Rows

A row of a reply has cells with names, each holding a value or nothing. It is read as a record field
by field; the first field without a cell, without a value or with a value of another type is told.
A time that lies outside the known years is of the right type, but the program panics over it.
-/

namespace MetricLedger.Postgres

/-- What comes of something that is asked of a database. -/
abbrev Result (α : Type) := Except (Halt StoreFault) α

structure Row where
  cells : List (String × Option Value)
deriving DecidableEq, Repr

/-- Types that a cell can be read as. -/
class Field (α : Type) where
  type : SqlType
  /-- How messages call the type. -/
  title : String
  /-- Whether values of a type can be read. -/
  reads : SqlType → Bool
  /-- What a value of such a type stands for, or the text of the panic over it. -/
  decode : Value → Option (Except String α)
  isSome_decode : ∀ v, (decode v).isSome = reads v.type

instance : Field Uuid where
  type := .uuid
  title := "uuid::Uuid"
  reads := (· == .uuid)
  decode
    | .uuid id => some (.ok id)
    | _ => none
  isSome_decode v := by cases v <;> rfl

instance : Field String where
  type := .text
  title := "alloc::string::String"
  reads := SqlType.isText
  decode
    | .text s => some (.ok s)
    | .other type s => if (SqlType.other type).isText then some (.ok s) else none
    | _ => none
  isSome_decode v := by
    cases v with
    | other type s => cases text : (SqlType.other type).isText <;> simp [Value.type, text]
    | uuid | text | double | timestamp => rfl

instance : Field Double where
  type := .double
  title := "f64"
  reads := (· == .double)
  decode
    | .double x => some (.ok x)
    | _ => none
  isSome_decode v := by cases v <;> rfl

/-- What is said of a time outside the known years. -/
def timeOverflow : String := "`NaiveDateTime + TimeDelta` overflowed"

instance : Field Instant where
  type := .timestamp
  title := "chrono::datetime::DateTime<chrono::offset::utc::Utc>"
  reads := (· == .timestamp)
  decode
    | .timestamp micros =>
      some (match Instant.ofMicros? micros with
        | some t => .ok t
        | none => .error timeOverflow)
    | _ => none
  isSome_decode v := by cases v <;> rfl

namespace Row

/-- What is in the last cell of a name. -/
def cell? (row : Row) (name : String) : Option (Option Value) := row.cells.reverse.lookup name

def field (α : Type) [Field α] (row : Row) (name : String) : Result α :=
  match row.cell? name with
  | none => .error (.failed (.columnNotFound name))
  | some none => .error (.failed (.column name .null))
  | some (some v) =>
    match Field.decode v with
    | some (.ok a) => .ok a
    | some (.error text) => .error (.panicked text)
    | none =>
      .error (.failed (.column name
        (.incompatible (Field.title α) (Field.type α).name v.type.name)))

def record (row : Row) : Result Record := do
  let id ← row.field Uuid "id"
  let name ← row.field String "metric_name"
  let type ← row.field String "metric_type"
  let value ← row.field Double "value"
  let createdAt ← row.field Instant "created_at"
  .ok ⟨id, name, type, value, createdAt⟩

/-- The row of a record, as a database keeps it. -/
def ofRecord (r : Record) : Row :=
  ⟨[("id", some (.uuid r.id)), ("metric_name", some (.text r.name)),
    ("metric_type", some (.text r.type)), ("value", some (.double r.value)),
    ("created_at", some (.timestamp r.createdAt.micros))]⟩

end Row

end MetricLedger.Postgres
