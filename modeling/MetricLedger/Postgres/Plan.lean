import MetricLedger.Postgres.Session

/-!
# Plans

What is asked of a session takes one or two statements, which are sent in their order up to the
first that fails. A statement fails if the server refuses it, fails to execute it, or answers with
rows that cannot be read.
-/

namespace MetricLedger.Postgres

/-- What comes of a statement that does not fail. -/
inductive Outcome
  | done
  | stored (r : Record)
  | listed (rs : List Record)
deriving DecidableEq, Repr

/-- What is read from the rows that a statement is answered with. -/
def Statement.read (rows : List Row) : Statement → Result Outcome
  | .createTable | .createIndex => .ok .done
  | .insert _ =>
    match rows with
    | [] => .error (.failed .rowNotFound)
    | row :: _ => row.record.map .stored
  | .selectNamed _ | .selectAll => (rows.mapM Row.record).map .listed

def Exchange.outcome (x : Exchange) : Result Outcome :=
  x.reply.result.bind fun rows => x.statement.read rows

namespace Session

/-- Sends one statement and reads what it is answered with. -/
def send (server : Server σ) (statement : Statement) (s : Session σ) :
    Result Outcome × Session σ :=
  let (result, s) := s.execute server statement
  (result.bind fun rows => statement.read rows, s)

/-- Sends statements up to the first that fails; what comes of it is what came of the last one, or
`last` if there is none. -/
def follow (server : Server σ) : List Statement → Outcome → Session σ →
    Result Outcome × Session σ
  | [], last, s => (.ok last, s)
  | statement :: plan, _, s =>
    match s.send server statement with
    | (.error f, s) => (.error f, s)
    | (.ok last, s) => follow server plan last s

end Session

/-- What is asked of a session. -/
inductive Request
  | ensureSchema
  | create (m : Measurement)
  | named (name : String)
  | all
deriving DecidableEq, Repr

namespace Request

/-- The statements that a request takes. -/
def plan (stamp : Stamp) : Request → List Statement
  | .ensureSchema => [.createTable, .createIndex]
  | .create m => [.insert (.ofMeasurement m stamp)]
  | .named name => [.selectNamed name]
  | .all => [.selectAll]

/-- Does what is asked of a session. The stamp marks the record, if one is made. -/
def perform (server : Server σ) (stamp : Stamp) (s : Session σ) :
    Request → Result Outcome × Session σ
  | .ensureSchema =>
    let (result, s) := s.ensureSchema server
    (result.map fun _ => .done, s)
  | .create m =>
    let (result, s) := (store server).create stamp m s
    (result.map .stored, s)
  | .named name =>
    let (result, s) := (store server).named name s
    (result.map .listed, s)
  | .all =>
    let (result, s) := (store server).all s
    (result.map .listed, s)

end Request

/-- Does one after the other what is asked of a session, whatever comes of it. -/
def Session.run (server : Server σ) :
    List (Stamp × Request) → Session σ → List (Result Outcome) × Session σ
  | [], s => ([], s)
  | (stamp, r) :: rest, s =>
    let (result, s) := r.perform server stamp s
    let (results, s) := run server rest s
    (result :: results, s)

/-- What a server replies to statements, one after the other. -/
def Server.replies (server : Server σ) : List Statement → σ → List Reply
  | [], _ => []
  | statement :: rest, s =>
    let (reply, s) := server.answer statement s
    reply :: replies server rest s

end MetricLedger.Postgres
