import MetricLedger.Proofs.Postgres.Plan
import MetricLedger.Proofs.Postgres.Reading

/-!
# What exchanges come to

Of a reply to what makes the table nothing is read. An insertion comes to the record of the first
row, a selection to the records of all rows. An exchange fails if the server reports a failure or a
fault is found in the rows, and the program panics over a time that is no instant.
-/

namespace MetricLedger.Postgres

/-- The statement makes the table. -/
inductive Statement.Prepares : Statement → Prop
  | table : Prepares .createTable
  | index : Prepares .createIndex

/-- The statement asks for records. -/
inductive Statement.Selects : Statement → Prop
  | named (name : String) : Selects (.selectNamed name)
  | all : Selects .selectAll

namespace Exchange

/-- What is read from an exchange. -/
inductive Gives : Exchange → Outcome → Prop
  | done {statement : Statement} (prepares : statement.Prepares) (found : List Row) :
    Gives ⟨statement, .rows found⟩ .done
  | stored (made : Record) {row : Row} (rest : List Row) {r : Record} (tells : row.Tells r) :
    Gives ⟨.insert made, .rows (row :: rest)⟩ (.stored r)
  | listed {statement : Statement} (selects : statement.Selects) {found : List Row}
    {rs : List Record} (tells : List.Forall₂ Row.Tells found rs) :
    Gives ⟨statement, .rows found⟩ (.listed rs)

/-- What is at fault in an exchange. -/
inductive Fails : Exchange → StoreFault → Prop
  | rejected (statement : Statement) (report : ServerReport) :
    Fails ⟨statement, .rejected report⟩ (.database report)
  | failed (statement : Statement) (report : ServerReport) :
    Fails ⟨statement, .failed report⟩ (.database report)
  | empty (made : Record) : Fails ⟨.insert made, .rows []⟩ .rowNotFound
  | stored (made : Record) {row : Row} (rest : List Row) {f : StoreFault} (fails : row.Fails f) :
    Fails ⟨.insert made, .rows (row :: rest)⟩ f
  | listed {statement : Statement} (selects : statement.Selects) {found : List Row}
    {f : StoreFault} (fails : FirstFault Row.Readable Row.Fails found f) :
    Fails ⟨statement, .rows found⟩ f

/-- The program panics over a time. -/
inductive Overflows : Exchange → String → Prop
  | stored (made : Record) {row : Row} (rest : List Row) {text : String}
    (overflows : row.Overflows text) : Overflows ⟨.insert made, .rows (row :: rest)⟩ text
  | listed {statement : Statement} (selects : statement.Selects) {found : List Row} {text : String}
    (overflows : FirstFault Row.Readable Row.Overflows found text) :
    Overflows ⟨statement, .rows found⟩ text

/-- What an exchange comes to, by the result of reading it. -/
def ComesTo (x : Exchange) : Result Outcome → Prop
  | .ok o => x.Gives o
  | .error (.failed f) => x.Fails f
  | .error (.panicked text) => x.Overflows text

theorem outcome_of_selects {statement : Statement} (selects : statement.Selects)
    (found : List Row) :
    outcome ⟨statement, .rows found⟩ = (found.mapM Row.record).map .listed := by
  cases selects <;> rfl

theorem outcome_of_insert (made : Record) (row : Row) (rest : List Row) :
    outcome ⟨.insert made, .rows (row :: rest)⟩ = row.record.map .stored := rfl

theorem comesTo_listed {statement : Statement} (selects : statement.Selects) (found : List Row) :
    ComesTo ⟨statement, .rows found⟩ (outcome ⟨statement, .rows found⟩) := by
  have reads := readsAll_mapM found
  rw [outcome_of_selects selects]
  rcases came : found.mapM Row.record with ⟨f | text⟩ | rs
  · exact .listed selects ((reads.fails f).mp came)
  · exact .listed selects ((reads.panics text).mp came)
  · exact .listed selects ((reads.tells rs).mp came)

theorem comesTo_stored (made : Record) (row : Row) (rest : List Row) :
    ComesTo ⟨.insert made, .rows (row :: rest)⟩ (outcome ⟨.insert made, .rows (row :: rest)⟩) := by
  rw [outcome_of_insert]
  rcases came : row.record with ⟨f | text⟩ | r
  · exact .stored made rest (Row.record_eq_failed_iff.mp came)
  · exact .stored made rest (Row.record_eq_panicked_iff.mp came)
  · exact .stored made rest (Row.record_eq_ok_iff.mp came)

/-- Every exchange comes to something. -/
theorem comesTo_outcome (x : Exchange) : x.ComesTo x.outcome := by
  obtain ⟨statement, reply⟩ := x
  cases reply with
  | rejected report => exact .rejected statement report
  | failed report => exact .failed statement report
  | rows found =>
    cases statement with
    | createTable => exact .done .table found
    | createIndex => exact .done .index found
    | insert made =>
      cases found with
      | nil => exact .empty made
      | cons row rest => exact comesTo_stored made row rest
    | selectNamed name => exact comesTo_listed (.named name) found
    | selectAll => exact comesTo_listed .all found

/-- And to nothing else. -/
theorem ComesTo.outcome_eq {x : Exchange} {result : Result Outcome} (h : x.ComesTo result) :
    x.outcome = result := by
  rcases result with ⟨f | text⟩ | o
  · cases (h : x.Fails f) with
    | rejected | failed | empty => rfl
    | stored made rest fails => rw [outcome_of_insert, Row.record_eq_failed_iff.mpr fails]; rfl
    | listed selects fails =>
      rw [outcome_of_selects selects, ((readsAll_mapM _).fails f).mpr fails]
      rfl
  · cases (h : x.Overflows text) with
    | stored made rest overflows =>
      rw [outcome_of_insert, Row.record_eq_panicked_iff.mpr overflows]
      rfl
    | listed selects overflows =>
      rw [outcome_of_selects selects, ((readsAll_mapM _).panics text).mpr overflows]
      rfl
  · cases (h : x.Gives o) with
    | done prepares found => cases prepares <;> rfl
    | stored made rest tells => rw [outcome_of_insert, Row.record_eq_ok_iff.mpr tells]; rfl
    | listed selects tells =>
      rw [outcome_of_selects selects, ((readsAll_mapM _).tells _).mpr tells]
      rfl

theorem outcome_eq_iff {x : Exchange} {result : Result Outcome} :
    x.outcome = result ↔ x.ComesTo result :=
  ⟨fun same => same ▸ x.comesTo_outcome, ComesTo.outcome_eq⟩

end Exchange

end MetricLedger.Postgres
