import MetricLedger.Proofs.Cli.Sending
import MetricLedger.Proofs.Log.Line

/-!
# What is on the standard output

A command that stores or finds something prints it as JSON, behind the lines of its log. Nothing
tells the two apart, so all that is on the standard output is one JSON document only if nothing is
logged. With a store in memory there is always a line, unless the environment asks for less. With a
database there are those of its driver too, whatever they are.
-/

namespace MetricLedger.Cli

open Work

/-! ## Lines in front of a document -/

/-- All that is on the standard output is one JSON document. -/
def Run.IsJson (r : Run) (clock : Nat → Instant) : Prop :=
  ∃ x, Json.Document x (Bytes.ofString (r.standardOutput clock))

/-- A single line of the log, before JSON that is printed, makes something else of the whole. -/
theorem Run.isJson_iff {r : Run} {v : Json.Value} {code : Nat} {complaint : String}
    (ending : r.ending = .exited code s!"{v.pretty}\n" complaint) (clock : Nat → Instant) :
    r.IsJson clock ↔ r.events = [] := by
  rw [IsJson, (exits_of_ending ending).standardOutput, logs]
  cases r.events with
  | nil => exact iff_of_true ⟨v.tree, by simpa using v.document_line⟩ rfl
  | cons e events =>
    refine iff_of_false ?_ (List.cons_ne_nil e events)
    rintro ⟨x, document⟩
    rw [List.zipIdx_cons, List.map_cons, String.join_cons, String.append_assoc] at document
    exact e.not_document_lineAt _ _ x document

/-! ## What is logged -/

/-- The table is there. -/
def ready : Log.Event := Service.debug Service.repository "Metric schema is ready"

/-- What the driver logs of a statement, if there is a database. -/
def statementEvents (env : Service.Environment σ) (i : Invocation) (n : Nat) : List Log.Event :=
  if i.inMemory then [] else env.driver.statement n

/-- What is logged until a store is open. -/
def openingEvents (env : Service.Environment σ) (i : Invocation) : List Log.Event :=
  if i.inMemory then [volatile]
  else (Service.connect env i.database).1 ++
    (env.driver.statement 0 ++ env.driver.statement 1 ++ [ready])

/-- A store is open: a session that has made the table, or else the ledger. -/
structure Opened (env : Service.Environment σ) (i : Invocation) (t : Trace σ) : Prop where
  events : t.events = openingEvents env i
  session : t.session.map (·.exchanges.length) = if i.inMemory then none else some 2

section
variable {env : Service.Environment σ} {i : Invocation} {stamp : Stamp}

theorem eval_bind_eq_ok {w : Work σ α} {f : α → Work σ β} {t u : Trace σ} {b : β}
    (h : (w >>= f).eval t = (.ok b, u)) :
    ∃ a s, w.eval t = (.ok a, s) ∧ (f a).eval s = (.ok b, u) := by
  rw [eval_bind] at h
  split at h
  · next a s came => exact ⟨a, s, came, h⟩
  · cases h

theorem eval_accept_eq_ok {halt : ε → Halt Report} {result : Except ε α} {t u : Trace σ} {a : α}
    (h : (accept halt result).eval t = (.ok a, u)) : result = .ok a ∧ t = u := by
  cases result with
  | ok b => cases h; exact ⟨rfl, rfl⟩
  | error f => cases h

theorem length_ensureSchema {server : Postgres.Server σ} {s : Postgres.Session σ} {done : Unit}
    (h : (s.ensureSchema server).1 = .ok done) :
    (s.ensureSchema server).2.exchanges.length = s.exchanges.length + 2 := by
  have first := s.length_execute server .createTable
  rw [Postgres.Session.ensureSchema] at h ⊢
  rcases executed : s.execute server .createTable with ⟨halt | rows, after⟩
  · rw [executed] at h
    cases h
  · rw [executed] at first
    exact (after.length_execute server .createIndex).trans (congrArg (· + 1) first)

/-- What the driver logs of so many statements of a session. -/
theorem between_eq (log : Service.DriverLog) {s after : Postgres.Session σ} {n : Nat}
    (h : after.exchanges.length = s.exchanges.length + n) :
    log.between s after = (List.range' s.exchanges.length n).flatMap log.statement := by
  simp only [Service.DriverLog.between, h, Nat.add_sub_cancel_left]

theorem eval_openSession_ok {d : Settings.Database} {events : List Log.Event}
    {s after : Postgres.Session σ} {done : Unit}
    (connecting : Service.connect env d = (events, .ok s))
    (prepared : s.ensureSchema env.server = (.ok done, after)) (t : Trace σ) :
    (openSession env d).eval t = (.ok (),
      { t with
        events := t.events ++ events ++ env.driver.between s after ++ [ready]
        session := some after }) := by
  rw [openSession, connecting]
  simp only [eval_bind, eval_accept, eval_log, prepared, Except.mapError]
  rfl

theorem opened_openSession (durable : i.inMemory = false) {u : Trace σ} {done : Unit}
    (h : (openSession env i.database).eval {} = (.ok done, u)) : Opened env i u := by
  rcases connecting : Service.connect env i.database with ⟨events, f | s⟩
  · rw [eval_openSession_error connecting] at h
    cases h
  have fresh := exchanges_of_connect (congrArg Prod.snd connecting)
  rcases prepared : s.ensureSchema env.server with ⟨halt | made, after⟩
  · obtain ⟨_, fails⟩ := eval_openSession (congrArg Prod.snd connecting) {}
    rw [fails, prepared] at h
    cases h
  have count := length_ensureSchema (congrArg Prod.fst prepared)
  rw [prepared] at count
  have driver := between_eq env.driver count
  rw [fresh] at count driver
  rw [eval_openSession_ok connecting prepared, driver] at h
  cases h
  constructor
  · rw [openingEvents, durable, connecting]
    simp [List.range']
  · rw [durable, Option.map_some, count]
    rfl

theorem opened_openStore {u : Trace σ} {done : Unit}
    (h : (openStore env i).eval {} = (.ok done, u)) : Opened env i u := by
  rw [openStore] at h
  cases volatile : i.inMemory with
  | true =>
    rw [volatile] at h
    cases h
    exact ⟨by rw [openingEvents, volatile]; rfl, by rw [volatile]; rfl⟩
  | false =>
    rw [volatile] at h
    exact opened_openSession volatile h

/-- What asks a store once is no more than one statement for a session. -/
theorem events_ask {call : {τ ε : Type} → Store τ ε → τ → Except ε α × τ}
    (once : ∀ s : Postgres.Session σ,
      (call (Postgres.store env.server) s).2.exchanges.length = s.exchanges.length + 1)
    {t u : Trace σ} {a : α} (opened : Opened env i t) (h : (ask env call).eval t = (.ok a, u)) :
    u.events = openingEvents env i ++ statementEvents env i 2 := by
  have session := opened.session
  rw [ask, eval_bind_ok (eval_get t)] at h
  cases kind : t.session with
  | none =>
    rw [kind] at h session
    obtain ⟨_, _, kept, h⟩ := eval_bind_eq_ok h
    cases kept
    obtain ⟨-, rfl⟩ := eval_accept_eq_ok h
    have volatile : i.inMemory = true := by simpa using session
    simp [statementEvents, volatile, opened.events]
  | some s =>
    rw [kind] at h session
    obtain ⟨_, _, kept, h⟩ := eval_bind_eq_ok h
    cases kept
    obtain ⟨_, _, logged, h⟩ := eval_bind_eq_ok h
    cases logged
    obtain ⟨-, rfl⟩ := eval_accept_eq_ok h
    obtain ⟨durable, count⟩ : i.inMemory = false ∧ s.exchanges.length = 2 := by
      cases volatile : i.inMemory <;> simp [volatile] at session
      exact ⟨rfl, session⟩
    have driver := between_eq env.driver (once s)
    rw [count] at driver
    simp [statementEvents, durable, opened.events, driver]

theorem create_once (server : Postgres.Server σ) (stamp : Stamp) (m : Measurement)
    (s : Postgres.Session σ) :
    ((Postgres.store server).create stamp m s).2.exchanges.length = s.exchanges.length + 1 := by
  exact s.length_execute server _

theorem find_once (server : Postgres.Server σ) (name : Option String) (s : Postgres.Session σ) :
    (Api.find (Postgres.store server) name s).2.exchanges.length = s.exchanges.length + 1 := by
  cases name <;> exact s.length_execute server _

end

/-! ## Commands that print what they store or find -/

/-- The command prints what it stores or finds. -/
def Order.Prints : Order → Prop
  | .record _ | .query _ => True
  | .serve .. | .migrate => False

/-- What comes of an invocation and is printed, and what is logged on the way to it, whether or not
it is shown. -/
inductive Tells (env : Service.Environment σ) (i : Invocation) :
    Postgres.Outcome → List Log.Event → Prop
  | record {m : Measurement} (r : Record) : i.order = .record m →
      Tells env i (.stored r) (openingEvents env i ++ statementEvents env i 2 ++ storedEvents i r)
  | query {name : Option String} (rs : List Record) : i.order = .query name →
      Tells env i (.listed rs) (openingEvents env i ++ statementEvents env i 2)

section
variable {env : Service.Environment σ} {i : Invocation} {stamp : Stamp} {ending : Ending}
  {u : Trace σ}

theorem tells_record {m : Measurement} (order : i.order = .record m)
    (h : (record env stamp i m).eval {} = (.ok ending, u)) :
    ∃ o, Tells env i o u.events ∧ ending = .exited 0 (printed o) "" := by
  rw [record] at h
  obtain ⟨_, _, checked, h⟩ := eval_bind_eq_ok h
  obtain ⟨-, rfl⟩ := eval_accept_eq_ok checked
  obtain ⟨_, _, opened, h⟩ := eval_bind_eq_ok h
  obtain ⟨r, _, stored, h⟩ := eval_bind_eq_ok h
  cases h
  refine ⟨.stored r, ?_, rfl⟩
  change Tells env i (.stored r) (_ ++ storedEvents i r)
  rw [events_ask (create_once env.server stamp _) (opened_openStore opened) stored]
  exact .record r order

theorem tells_query {name : Option String} (order : i.order = .query name)
    (h : (query env i name).eval {} = (.ok ending, u)) :
    ∃ o, Tells env i o u.events ∧ ending = .exited 0 (printed o) "" := by
  rw [query] at h
  obtain ⟨_, _, opened, h⟩ := eval_bind_eq_ok h
  obtain ⟨rs, _, found, h⟩ := eval_bind_eq_ok h
  cases h
  refine ⟨.listed rs, ?_, rfl⟩
  rw [events_ask (find_once env.server name) (opened_openStore opened) found]
  exact .query rs order

theorem tells_perform (prints : i.order.Prints)
    (h : (perform env stamp i).eval {} = (.ok ending, u)) :
    ∃ o, Tells env i o u.events ∧ ending = .exited 0 (printed o) "" := by
  rw [perform] at h
  cases order : i.order with
  | serve | migrate => rw [order] at prints; cases prints
  | record m => rw [order] at h; exact tells_record order h
  | query name => rw [order] at h; exact tells_query order h

/-- What is printed is the JSON of a value. -/
theorem Tells.exists_printed {o : Postgres.Outcome} {events : List Log.Event}
    (h : Tells env i o events) : ∃ v : Json.Value, printed o = s!"{v.pretty}\n" := by
  cases h with
  | record r order => exact ⟨_, rfl⟩
  | query rs order => exact ⟨_, rfl⟩

/-- A run that prints what it stores or finds is the work of its invocation, done well. -/
theorem eval_of_exits {environment : String → Option String} {args : List String}
    (parsed : Invocation.parse environment args = .ok i) {output complaint : String}
    (exits : (run env environment stamp args).ending = .exited 0 output complaint) :
    ∃ ending u, (perform env stamp i).eval {} = (.ok ending, u) := by
  rw [Run.run_eq parsed] at exits
  rcases came : (perform env stamp i).eval {} with ⟨(report | text) | ending, u⟩
  · rw [came] at exits
    cases exits
  · rw [came] at exits
    cases exits
  · exact ⟨ending, u, rfl⟩

/-! ## What is shown by default -/

theorem allows_ofLevel (level : Log.Level) (e : Log.Event) :
    (Log.Filter.ofLevel level).allows e = decide (e.level.rank ≤ level.rank) := rfl

theorem filter_of_unset {environment : String → Option String}
    (unset : (environment filterVariable).bind Log.Filter.parse? = none) :
    i.filter environment = .ofLevel i.level := by
  rw [Invocation.filter, unset]
  rfl

theorem warn_le_level (i : Invocation) : Log.Level.warn.rank ≤ i.level.rank := by
  unfold Invocation.level
  split
  · decide
  · split <;> decide

theorem level_of_terse (terse : i.verbose = false) (quiet : i.debug = false) : i.level = .warn := by
  simp [Invocation.level, terse, quiet]

theorem warn_lt_info : Log.Level.warn.rank < Log.Level.info.rank := by decide

theorem warn_lt_debug : Log.Level.warn.rank < Log.Level.debug.rank := by decide

theorem Tells.opening {o : Postgres.Outcome} {events : List Log.Event}
    (h : Tells env i o events) : ∃ more, events = openingEvents env i ++ more := by
  cases h with
  | record r order => exact ⟨_, List.append_assoc ..⟩
  | query rs order => exact ⟨_, rfl⟩

/-- The driver logs nothing that is as grave as a warning. -/
structure Quiet (log : Service.DriverLog) : Prop where
  connecting : ∀ e ∈ log.connecting, Log.Level.warn.rank < e.level.rank
  statement : ∀ n, ∀ e ∈ log.statement n, Log.Level.warn.rank < e.level.rank

theorem eq_connected_of_known {d : Settings.Database}
    (known : (Postgres.Destination.ofString d.url).1 = []) :
    ∀ e ∈ (Service.connect env d).1, e = Service.connected d ∨ e ∈ env.driver.connecting := by
  unfold Service.connect
  grind

/-- What is logged over a database, its parameters all being known and its driver quiet, is less
than a warning. -/
theorem Tells.warn_lt {o : Postgres.Outcome} {events : List Log.Event} (h : Tells env i o events)
    (durable : i.inMemory = false)
    (known : (Postgres.Destination.ofString i.database.url).1 = []) (quiet : Quiet env.driver) :
    ∀ e ∈ events, Log.Level.warn.rank < e.level.rank := by
  have opening : ∀ e ∈ openingEvents env i, Log.Level.warn.rank < e.level.rank := by
    rw [openingEvents, durable]
    refine List.forall_mem_append.mpr ⟨fun e mem => ?_, List.forall_mem_append.mpr
      ⟨List.forall_mem_append.mpr ⟨quiet.statement 0, quiet.statement 1⟩,
        List.forall_mem_singleton.mpr warn_lt_debug⟩⟩
    rcases eq_connected_of_known known e mem with rfl | logged
    · exact warn_lt_info
    · exact quiet.connecting e logged
  have asking : ∀ e ∈ openingEvents env i ++ statementEvents env i 2,
      Log.Level.warn.rank < e.level.rank := by
    rw [statementEvents, durable]
    exact List.forall_mem_append.mpr ⟨opening, quiet.statement 2⟩
  cases h with
  | record r order =>
    refine List.forall_mem_append.mpr ⟨asking, ?_⟩
    rw [storedEvents, durable]
    exact List.forall_mem_singleton.mpr warn_lt_debug
  | query rs order => exact asking

end

/-- What is on the standard output when a command that prints what it stores or finds exits with 0:
the lines that are logged, and then the JSON of the record, or of the list of records. All of it is
one JSON document only if nothing is logged. By default there is always a line if the store is in
memory, and none if it is a database whose parameters are known and whose driver is quiet, unless
more is asked for. -/
theorem output_is_json_iff (env : Service.Environment σ) (environment : String → Option String)
    (stamp : Stamp) (args : List String) {i : Invocation}
    (parsed : Invocation.parse environment args = .ok i) (prints : i.order.Prints)
    {output complaint : String}
    (exits : (run env environment stamp args).ending = .exited 0 output complaint) :
    let r := run env environment stamp args
    ∃ o events, Tells env i o events ∧ r.events = events.filter (i.filter environment).allows ∧
      r.Exits 0 (printed o) ∧ Says (printed o) o ∧ (∀ clock, r.IsJson clock ↔ r.events = []) ∧
      ((environment filterVariable).bind Log.Filter.parse? = none →
        (i.inMemory = true → r.events ≠ []) ∧
        (i.inMemory = false → i.verbose = false → i.debug = false →
          (Postgres.Destination.ofString i.database.url).1 = [] → Quiet env.driver →
          r.events = [])) := by
  intro r
  obtain ⟨ending, u, done⟩ := eval_of_exits parsed exits
  obtain ⟨o, tells, rfl⟩ := tells_perform prints done
  have here : r = Run.ofWork environment i (.ok (.exited 0 (printed o) ""), u) := by
    rw [← done]
    exact Run.run_eq parsed env stamp
  have ended : r.ending = .exited 0 (printed o) "" := by rw [here]; rfl
  have logged : r.events = u.events.filter (i.filter environment).allows := by rw [here]; rfl
  obtain ⟨v, text⟩ := tells.exists_printed
  have json : ∀ clock, r.IsJson clock ↔ r.events = [] := Run.isJson_iff (text ▸ ended)
  refine ⟨o, u.events, tells, logged, Run.exits_of_ending ended, says_printed o, json,
    fun unset => ⟨fun inMemory => ?_, fun durable terse plain known quiet => ?_⟩⟩
  · obtain ⟨more, opening⟩ := tells.opening
    have among : volatile ∈ u.events := by
      rw [opening, openingEvents, if_pos inMemory]
      exact List.mem_cons_self ..
    have shown : (Log.Filter.ofLevel i.level).allows volatile = true :=
      decide_eq_true (warn_le_level i)
    rw [logged, filter_of_unset unset]
    exact List.ne_nil_of_mem (List.mem_filter.mpr ⟨among, shown⟩)
  · rw [logged, filter_of_unset unset, level_of_terse terse plain, List.filter_eq_nil_iff]
    intro e mem
    rw [allows_ofLevel, decide_eq_true_eq]
    exact Nat.not_le.mpr (tells.warn_lt durable known quiet e mem)

/-- Surroundings in which nothing is to be logged. -/
def silent (name : String) : Option String :=
  if name = filterVariable then some "off" else none

/-- If nothing is to be logged, what a query prints is all there is. -/
theorem silent_query_is_json :
    let r := run (scripted []) silent ⟨⟨1⟩, default⟩ ["--in-memory", "query"]
    ∀ clock, r.IsJson clock := by
  intro r clock
  have parsed : Invocation.parse silent ["--in-memory", "query"] =
      .ok { recordOne with inMemory := true, order := .query none } :=
    eq_ok_of_toOption (by decide +kernel)
  have exits : r.ending = .exited 0 "[]\n" "" := by decide +kernel
  obtain ⟨o, events, -, -, -, -, json, -⟩ :=
    output_is_json_iff (scripted []) silent ⟨⟨1⟩, default⟩ _ parsed trivial exits
  exact (json clock).mpr (by decide +kernel)

/-- A query prints a line of its log in front of what it finds. -/
theorem query_is_not_json :
    let r := run (scripted []) (fun _ => none) ⟨⟨1⟩, default⟩ ["--in-memory", "query"]
    r.Exits 0 "[]\n" ∧ ∀ clock, ¬ r.IsJson clock := by
  intro r
  have ending : r.ending = .exited 0 s!"{(Record.listJson []).pretty}\n" "" := by decide +kernel
  have logged : r.events = [volatile] := by decide +kernel
  refine ⟨Run.exits_of_ending ending, fun clock => ?_⟩
  rw [Run.isJson_iff ending, logged]
  exact List.cons_ne_nil volatile []

end MetricLedger.Cli
