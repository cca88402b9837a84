import MetricLedger.Metric.Store
import MetricLedger.Postgres.Row

/-!
# Sessions

A session sends statements to a server, one at a time, and keeps what was said. A statement that is
refused is not sent again. Over a session the store of records is a table: recording inserts one row
and takes what comes back for the record; listing reads rows in the order the server gives them.
-/

namespace MetricLedger.Postgres

/-- What a server makes of a statement: it refuses to prepare it, fails to execute it, or answers
with rows. -/
inductive Reply
  | rejected (report : ServerReport)
  | failed (report : ServerReport)
  | rows (found : List Row)
deriving DecidableEq, Repr

def Reply.result : Reply → Result (List Row)
  | .rejected report | .failed report => .error (.failed (.database report))
  | .rows found => .ok found

structure Server (σ : Type) where
  answer : Statement → σ → Reply × σ

structure Exchange where
  statement : Statement
  reply : Reply
deriving DecidableEq, Repr

/-- The server as it is now, and all exchanges with it so far. -/
structure Session (σ : Type) where
  server : σ
  exchanges : List Exchange := []

namespace Session

/-- Sends one statement. -/
def execute (server : Server σ) (statement : Statement) (s : Session σ) :
    Result (List Row) × Session σ :=
  let (reply, after) := server.answer statement s.server
  (reply.result, ⟨after, s.exchanges ++ [⟨statement, reply⟩]⟩)

/-- Makes the table and its index, unless they are there. -/
def ensureSchema (server : Server σ) (s : Session σ) : Result Unit × Session σ :=
  match s.execute server .createTable with
  | (.error f, s) => (.error f, s)
  | (.ok _, s) =>
    let (result, s) := s.execute server .createIndex
    (result.map fun _ => (), s)

def create (server : Server σ) (stamp : Stamp) (m : Measurement) (s : Session σ) :
    Result Record × Session σ :=
  let (result, s) := s.execute server (.insert (.ofMeasurement m stamp))
  (result.bind fun rows =>
    match rows with
    | [] => .error (.failed .rowNotFound)
    | row :: _ => row.record, s)

def select (server : Server σ) (statement : Statement) (s : Session σ) :
    Result (List Record) × Session σ :=
  let (result, s) := s.execute server statement
  (result.bind fun rows => rows.mapM Row.record, s)

@[simp] theorem length_execute (server : Server σ) (statement : Statement) (s : Session σ) :
    (s.execute server statement).2.exchanges.length = s.exchanges.length + 1 := by
  simp [execute]

end Session

/-- The store that a session is. Its calls may also panic, and other calls go on after that. -/
def store (server : Server σ) : Store (Session σ) (Halt StoreFault) where
  create stamp m s := s.create server stamp m
  named name s := s.select server (.selectNamed name)
  all s := s.select server .selectAll

end MetricLedger.Postgres
