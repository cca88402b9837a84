import MetricLedger.Proofs.Postgres.Reading

/-!
# The texts of statements

What each statement says. A record is put into the columns that records are read from and is given
back from them, and a mark with its number stands for each of the parameters.
-/

namespace MetricLedger.Postgres

/-- The names of the columns of a record. -/
def columnList : String := ", ".intercalate (columns.map (·.name))

/-- The marks of so many parameters, the first being `$1`. -/
def marks (n : Nat) : String := ", ".intercalate ((List.range n).map fun k => s!"${k + 1}")

def tableText : String := "
CREATE TABLE IF NOT EXISTS system_metrics (
    id          UUID PRIMARY KEY,
    metric_name TEXT NOT NULL,
    metric_type TEXT NOT NULL,
    value       DOUBLE PRECISION NOT NULL,
    created_at  TIMESTAMPTZ NOT NULL DEFAULT now()
)"

def indexText : String :=
  "CREATE INDEX IF NOT EXISTS idx_system_metrics_metric_name ON system_metrics (metric_name)"

/-- One row with a parameter for each column. -/
def insertText : String :=
  s!"INSERT INTO system_metrics ({columnList}) VALUES ({marks columns.length}) " ++
    s!"RETURNING {columnList}"

/-- All rows, or those of one name. -/
def selectText (named : Bool) : String :=
  let condition := if named then "WHERE metric_name = $1 " else ""
  s!"SELECT {columnList} FROM system_metrics {condition}ORDER BY created_at, id"

/-- The numbers behind the dollar signs of a text. -/
def placeholders (text : String) : List Nat := go text.toByteArray.data.toList
where
  go : Bytes → List Nat
    | [] => []
    | b :: bs =>
      if b = ascii '$' then
        (bs.takeWhile Json.isDigit).foldl (fun n d => n * 10 + (d.toNat - 48)) 0 :: go bs
      else go bs

/-- An exchange is about a statement of this text with these parameters, one for each mark. -/
structure Exchange.Says (x : Exchange) (text : String) (values : List Value) : Prop where
  sql : x.statement.sql = text
  parameters : x.statement.parameters = values
  marked : placeholders text = List.range' 1 values.length

namespace Statement

/-- The text of a statement, whatever its data. -/
def text : Statement → String
  | .createTable => tableText
  | .createIndex => indexText
  | .insert _ => insertText
  | .selectNamed _ => selectText true
  | .selectAll => selectText false

theorem sql_eq_text (statement : Statement) : statement.sql = statement.text := by
  cases statement with
  | createTable | createIndex => rfl
  | insert r => change (insert ⟨⟨0⟩, "", "", ⟨0⟩, default⟩).sql = insertText; decide +kernel
  | selectNamed name => change (selectNamed "").sql = selectText true; decide +kernel
  | selectAll => change selectAll.sql = selectText false; decide +kernel

/-- Each parameter has its mark, and there are no other marks. -/
theorem placeholders_text (statement : Statement) :
    placeholders statement.text = List.range' 1 statement.parameters.length := by
  cases statement with
  | createTable => change placeholders tableText = []; decide +kernel
  | createIndex => change placeholders indexText = []; decide +kernel
  | insert r => change placeholders insertText = [1, 2, 3, 4, 5]; decide +kernel
  | selectNamed name => change placeholders (selectText true) = [1]; decide +kernel
  | selectAll => change placeholders (selectText false) = []; decide +kernel

end Statement

/-- Every exchange says what its statement does. -/
theorem Exchange.says (x : Exchange) : x.Says x.statement.text x.statement.parameters :=
  ⟨x.statement.sql_eq_text, rfl, x.statement.placeholders_text⟩

end MetricLedger.Postgres
