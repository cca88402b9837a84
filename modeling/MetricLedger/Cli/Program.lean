import MetricLedger.Cli.CommandLine
import MetricLedger.Cli.Help
import MetricLedger.Cli.Report
import MetricLedger.Failure.Halt
import MetricLedger.Log.Filter
import MetricLedger.Service.Serving

/-!
# The program

One run of the program: it reads its command line, opens a store, does what it is asked to do and
prints what comes of it, or reports why not. What is logged on the way goes to the standard output
before the result, and so does what the driver of a database logs.
-/

namespace MetricLedger.Cli

/-- What a run leaves behind: the events so far, and the store that it has opened. -/
structure Trace (σ : Type) where
  events : List Log.Event := []
  ledger : Ledger := .empty
  session : Option (Postgres.Session σ) := none

/-- A part of a run; what it leaves behind stays when it fails or panics. -/
abbrev Work (σ α : Type) := ExceptT (Halt Report) (StateM (Trace σ)) α

/-- How a run ends. -/
inductive Ending
  | exited (code : Nat) (output complaint : String)
  /-- It does not end by itself. -/
  | serving (l : Settings.Listener)
deriving DecidableEq, Repr

/-- What is said of a panic, but for the place in the program. -/
def panicMessage (text : String) : String := s!"thread 'main' panicked:\n{text}\n"

/-- The end of a run that comes to nothing. -/
def Ending.ofHalt : Halt Report → Ending
  | .failed report => .exited 1 "" report.text
  | .panicked text => .exited 101 "" (panicMessage text)

namespace Work

def log (events : List Log.Event) : Work σ Unit :=
  modify fun t => { t with events := t.events ++ events }

/-- Goes on with what came of a part, or ends because there is nothing. -/
def accept (halt : ε → Halt Report) : Except ε α → Work σ α
  | .ok a => pure a
  | .error f => throw (halt f)

end Work

open Work

/-- Opens a session with the database and makes sure of the table. -/
def openSession (env : Service.Environment σ) (d : Settings.Database) : Work σ Unit := do
  let (events, opened) := Service.connect env d
  log events
  let s ← accept (fun f => .failed (.during "failed to connect to the metric store" f)) opened
  let (ready, after) := s.ensureSchema env.server
  modify fun t => { t with session := some after }
  log (env.driver.between s after)
  accept (Halt.map fun f => .during "failed to prepare the metric schema" (.persistence f)) ready
  log [Service.debug Service.repository "Metric schema is ready"]

def volatile : Log.Event :=
  Service.warn Service.programName "Using in-memory metric store; records are lost on exit"

def openStore (env : Service.Environment σ) (i : Invocation) : Work σ Unit :=
  if i.inMemory then log [volatile] else openSession env i.database

/-- Asks the store that is open: the session, or else the ledger. -/
def ask (env : Service.Environment σ)
    (call : {τ ε : Type} → Store τ ε → τ → Except ε α × τ) : Work σ α := do
  let t ← get
  match t.session with
  | some s =>
    let (result, after) := call (Postgres.store env.server) s
    set { t with session := some after }
    log (env.driver.between s after)
    accept (Halt.map fun f => .ofFailure (.persistence f)) result
  | none =>
    let (result, ledger) := call Store.inMemory t.ledger
    set { t with ledger }
    accept (fun f => .failed (.ofFailure (.persistence f))) result

def listener (i : Invocation) (cors : Bool) (sampleInterval : Option UInt64) :
    Settings.Listener :=
  (({ host := i.host, port := i.port } : Settings.Listener).withCors cors).withSampleInterval
    sampleInterval

def settingsEvents (i : Invocation) (l : Settings.Listener) : List Log.Event :=
  [Service.info Service.programName "Web server configuration:",
    Service.info Service.programName s!"  - Bind address: {l.bindAddress}",
    Service.info Service.programName s!"  - CORS enabled: {l.enableCors}",
    Service.info Service.programName s!"  - In-memory store: {i.inMemory}"]

def serve (env : Service.Environment σ) (i : Invocation) (l : Settings.Listener) :
    Work σ Ending := do
  log [Service.info Service.programName "Starting health metrics service..."]
  openStore env i
  log (settingsEvents i l)
  let (events, started) := Service.start env l
  log events
  accept (fun f => .failed (.ofFailure f)) started
  return .serving l

def migrate (env : Service.Environment σ) (i : Invocation) : Work σ Ending := do
  if i.inMemory then
    throw (.failed { headline := "migrate requires a database; drop --in-memory" })
  openSession env i.database
  return .exited 0 "Metric schema is up to date\n" ""

/-- What a database logs of a record that it has stored. -/
def storedEvents (i : Invocation) (r : Record) : List Log.Event :=
  if i.inMemory then []
  else [Service.debug Service.repository s!"Stored metric {r.name} ({r.id.text})"]

def record (env : Service.Environment σ) (stamp : Stamp) (i : Invocation) (m : Measurement) :
    Work σ Ending := do
  let m ← accept (fun f => .failed (.ofFailure (.invalid (.flaw f)))) m.check
  openStore env i
  let r ← ask env fun store => store.create stamp m
  log (storedEvents i r)
  return .exited 0 s!"{r.toJson.pretty}\n" ""

def query (env : Service.Environment σ) (i : Invocation) (name : Option String) :
    Work σ Ending := do
  openStore env i
  let rs ← ask env fun store => Api.find store name
  return .exited 0 s!"{(Record.listJson rs).pretty}\n" ""

/-- Does what the program is asked to do. The stamp marks the record, if one is made. -/
def perform (env : Service.Environment σ) (stamp : Stamp) (i : Invocation) : Work σ Ending :=
  match i.order with
  | .serve cors sampleInterval => serve env i (listener i cors sampleInterval)
  | .migrate => migrate env i
  | .record m => record env stamp i m
  | .query name => query env i name

/-- The level up to which events are logged unless the environment says otherwise. -/
def Invocation.level (i : Invocation) : Log.Level :=
  if i.debug then .debug else if i.verbose then .info else .warn

/-- The variable of the environment that says what is logged. -/
def filterVariable : String := "RUST_LOG"

/-- What is logged: as the environment says, if it can be understood. -/
def Invocation.filter (environment : String → Option String) (i : Invocation) : Log.Filter :=
  ((environment filterVariable).bind Log.Filter.parse?).getD (.ofLevel i.level)

/-- A run: what was logged, what was said to a database if one was connected to, and the end. -/
structure Run where
  events : List Log.Event := []
  exchanges : List Postgres.Exchange := []
  filter : Log.Filter := .ofLevel .error
  ending : Ending
deriving DecidableEq, Repr

namespace Run

/-- What stands on the standard output when a run is over, `clock` telling when each event came. -/
def standardOutput (r : Run) (clock : Nat → Instant) : String :=
  let lines := r.events.zipIdx.map fun (e, n) => e.lineAt (clock n)
  match r.ending with
  | .exited _ output _ => String.join lines ++ output
  | .serving _ => String.join lines

def ofStop (environment : String → Option String) : Stop → Run
  | .help c long => { ending := .exited 0 (c.helpText environment long) "" }
  | .version => { ending := .exited 0 versionText "" }
  | .fault f => { ending := .exited 2 "" f.message }

def ofInvocation (env : Service.Environment σ) (environment : String → Option String)
    (stamp : Stamp) (i : Invocation) : Run :=
  let (result, trace) := (perform env stamp i).run.run {}
  let filter := i.filter environment
  { events := trace.events.filter filter.allows
    exchanges := (trace.session.map (·.exchanges)).getD []
    filter
    ending := match result with
      | .ok ending => ending
      | .error halt => .ofHalt halt }

/-- What is logged while the program serves and the given number of samples is recorded. -/
def sampleEvents (r : Run) (samples : Nat) : List Log.Event :=
  match r.ending with
  | .serving l =>
    if l.sampleInterval.isSome then
      (List.replicate samples (Service.sampleEvents [])).flatten.filter r.filter.allows
    else []
  | .exited .. => []

end Run

/-- Runs the program. -/
def run (env : Service.Environment σ) (environment : String → Option String) (stamp : Stamp)
    (args : List String) : Run :=
  match Invocation.parse environment args with
  | .error stop => .ofStop environment stop
  | .ok i => .ofInvocation env environment stamp i

end MetricLedger.Cli
