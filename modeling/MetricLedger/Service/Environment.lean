import MetricLedger.Postgres.ConnectionString
import MetricLedger.Postgres.Session
import MetricLedger.Service.Parts
import MetricLedger.Settings.Database
import MetricLedger.Settings.Listener
import MetricLedger.System.Isolated

/-!
# What the service finds around it

Databases that it can connect to, and addresses that it can listen on. Connecting checks the
settings first, then the connection string, and only then asks for the database. The driver of the
databases writes to the log of the service too.
-/

namespace MetricLedger.Service

/-- What the driver of the databases logs of its own: on the way to a connection, and of the
statement that comes after so many others. It depends on what servers send, and how fast. -/
structure DriverLog where
  connecting : List Log.Event := []
  statement : Nat → List Log.Event := fun _ => []

/-- What the driver logs while a session goes on. -/
def DriverLog.between (log : DriverLog) (before after : Postgres.Session σ) : List Log.Event :=
  let first := before.exchanges.length
  (List.range' first (after.exchanges.length - first)).flatMap log.statement

/-- The surroundings of the service; `σ` is the state of a database server. -/
structure Environment (σ : Type) where
  server : Postgres.Server σ
  connect : Postgres.Destination → Except StoreFault σ
  listen : Net.SocketAddress → Except System.Errno Unit
  driver : DriverLog := {}

/-- The surroundings on a machine that is on no network: no database is ever connected to. If
`taken` is true, another program listens on the address that is asked for. -/
def Environment.isolated (taken : Bool) : Environment Empty where
  server := ⟨fun _ s => s.elim⟩
  connect d := .error (.io (match d.directory? with
    | some directory => System.Isolated.reachSocket s!"{directory}/.s.PGSQL.{d.port.toNat}"
    | none => System.Isolated.reachHost d.host))
  listen := System.Isolated.listen taken

def unknownParameter (parameter : String × String) : Log.Event where
  level := .warn
  target := "sqlx_postgres::options::parse"
  message := "ignoring unrecognized connect parameter"
  fields := [("key", parameter.1), ("value", parameter.2)]

def connected (d : Settings.Database) : Log.Event :=
  info repository s!"Connected to metric store (max {d.maxConnections.toNat} connections)"

/-- Opens a session with the database of the settings. -/
def connect (env : Environment σ) (d : Settings.Database) :
    List Log.Event × Except Failure (Postgres.Session σ) :=
  match d.check with
  | .error f => ([], .error (.config f))
  | .ok () =>
    let (unknown, result) := Postgres.Destination.ofString d.url
    let warnings := unknown.map unknownParameter
    match result with
    | .error f => (warnings, .error (.persistence (.configuration f)))
    | .ok destination =>
      let logged := warnings ++ env.driver.connecting
      if d.acquireTimeout = 0 then (logged, .error (.persistence .poolTimedOut))
      else match env.connect destination with
        | .error f => (logged, .error (.persistence f))
        | .ok s => (logged ++ [connected d], .ok ⟨s, []⟩)

/-- Whether settings that would do otherwise ask for a longer wait than the clock can tell the end
of; connecting then stops the program. -/
def waitsTooLong (d : Settings.Database) : Bool :=
  d.check.isOk && (Postgres.Destination.ofString d.url).2.isOk &&
    UInt64.size / 2 ≤ d.acquireTimeout.toNat

end MetricLedger.Service
