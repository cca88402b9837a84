import MetricLedger.Cli.Program
import MetricLedger.Proofs.Metric.Record
import MetricLedger.Proofs.Postgres.Outcome
import MetricLedger.Proofs.Postgres.Texts

/-!
# What commands send to a database

A command that ends makes sure of the table and then sends at most one more statement. It stops at
the first statement that fails, and prints what came of the last one only if none did. What it is
given and what it is told of the database are checked before the database is asked for. A time that
is no instant is not a failure: the program panics when it reads the row.
-/

namespace MetricLedger.Cli

/-! ## Parts of a run -/

namespace Work

/-- What comes of a part of a run, and what it leaves behind. -/
def eval (w : Work σ α) (t : Trace σ) : Except (Halt Report) α × Trace σ := w.run.run t

theorem eval_bind (w : Work σ α) (f : α → Work σ β) (t : Trace σ) :
    (w >>= f).eval t =
      match w.eval t with
      | (.ok a, t) => (f a).eval t
      | (.error halt, t) => (.error halt, t) := by
  unfold eval
  rw [ExceptT.run_bind, StateT.run_bind]
  rcases w.run.run t with ⟨halt | a, after⟩ <;> rfl

theorem eval_bind_ok {w : Work σ α} {t t' : Trace σ} {a : α} (h : w.eval t = (.ok a, t'))
    (f : α → Work σ β) : (w >>= f).eval t = (f a).eval t' := by
  rw [eval_bind, h]

theorem eval_bind_error {w : Work σ α} {t t' : Trace σ} {halt : Halt Report}
    (h : w.eval t = (.error halt, t')) (f : α → Work σ β) :
    (w >>= f).eval t = (.error halt, t') := by
  rw [eval_bind, h]

theorem eval_get (t : Trace σ) : (get : Work σ (Trace σ)).eval t = (.ok t, t) := rfl

theorem eval_log (events : List Log.Event) (t : Trace σ) :
    (log events).eval t = (.ok (), { t with events := t.events ++ events }) := rfl

theorem eval_accept (halt : ε → Halt Report) (result : Except ε α) (t : Trace σ) :
    (accept halt result).eval t = (result.mapError halt, t) := by
  cases result <;> rfl

theorem eval_openSession {env : Service.Environment σ} {d : Settings.Database}
    {s : Postgres.Session σ} (connected : (Service.connect env d).2 = .ok s) (t : Trace σ) :
    ∃ events, (openSession env d).eval t =
      ((s.ensureSchema env.server).1.mapError (Halt.map fun f =>
          .during "failed to prepare the metric schema" (.persistence f)),
        { t with events := events, session := some (s.ensureSchema env.server).2 }) := by
  rcases connecting : Service.connect env d with ⟨events, opened⟩
  rw [connecting] at connected
  subst connected
  rw [openSession, connecting]
  simp only [eval_bind, eval_accept, eval_log, Except.mapError]
  rcases s.ensureSchema env.server with ⟨halt | done, after⟩
  · exact ⟨_, rfl⟩
  · exact ⟨_, rfl⟩

theorem eval_ask (env : Service.Environment σ)
    (call : {τ ε : Type} → Store τ ε → τ → Except ε α × τ) {t : Trace σ}
    {s : Postgres.Session σ} (opened : t.session = some s) :
    ∃ events, (ask env call).eval t =
      ((call (Postgres.store env.server) s).1.mapError
          (Halt.map fun f => .ofFailure (.persistence f)),
        { t with events := events, session := some (call (Postgres.store env.server) s).2 }) := by
  rw [ask, eval_bind_ok (eval_get t)]
  simp only [opened, eval_bind, eval_accept, eval_log]
  exact ⟨_, rfl⟩

theorem eval_openSession_error {env : Service.Environment σ} {d : Settings.Database}
    {events : List Log.Event} {f : Failure} (refused : Service.connect env d = (events, .error f))
    (t : Trace σ) :
    (openSession env d).eval t =
      (.error (.failed (.during "failed to connect to the metric store" f)),
        { t with events := t.events ++ events }) := by
  rw [openSession, refused]
  simp only [eval_bind, eval_accept, eval_log, Except.mapError]

end Work

open Work

/-! ## Plans -/

/-- The command ends by itself. -/
def Order.Ends : Order → Prop
  | .serve .. => False
  | .migrate | .record _ | .query _ => True

/-- The statements that a command sends, if none of them fails. -/
def Order.plan (stamp : Stamp) : Order → List Postgres.Statement
  | .serve .. | .migrate => [.createTable, .createIndex]
  | .record m => [.createTable, .createIndex, .insert (.ofMeasurement m stamp)]
  | .query (some name) => [.createTable, .createIndex, .selectNamed name]
  | .query none => [.createTable, .createIndex, .selectAll]

theorem Order.nodup_plan (stamp : Stamp) (o : Order) : (o.plan stamp).Nodup := by
  rcases o with _ | _ | m | _ | name <;> simp [plan]

/-- The texts of these statements, each with its parameters. -/
def Order.texts (stamp : Stamp) (o : Order) : List (String × List Postgres.Value) :=
  [(Postgres.tableText, []), (Postgres.indexText, [])] ++
    match o with
    | .serve .. | .migrate => []
    | .record m => [(Postgres.insertText, [.uuid stamp.id, .text m.name, .text m.type,
        .double m.value, .timestamp stamp.time.micros])]
    | .query (some name) => [(Postgres.selectText true, [.text name])]
    | .query none => [(Postgres.selectText false, [])]

theorem Order.texts_eq (stamp : Stamp) (o : Order) :
    o.texts stamp = (o.plan stamp).map fun a => (a.sql, a.parameters) := by
  simp only [Postgres.Statement.sql_eq_text]
  rcases o with _ | _ | m | _ | name <;> rfl

/-- What is printed of what came of the last statement. -/
def printed : Postgres.Outcome → String
  | .done => "Metric schema is up to date\n"
  | .stored r => s!"{r.toJson.pretty}\n"
  | .listed rs => s!"{(Record.listJson rs).pretty}\n"

/-- The text says what came of the last statement, and nothing else. -/
def Says (text : String) : Postgres.Outcome → Prop
  | .done => text = "Metric schema is up to date\n"
  | .stored r => r.IsTold text
  | .listed rs => Record.AreTold rs text

theorem says_printed (o : Postgres.Outcome) : Says (printed o) o := by
  cases o with
  | done => rfl
  | stored r => exact r.isTold_line
  | listed rs => exact Record.areTold_line rs

/-- From a trace on, a part of a run follows a plan over a session, and ends well if that
succeeds. -/
structure Work.Sends (env : Service.Environment σ) (t : Trace σ) (s : Postgres.Session σ)
    (plan : List Postgres.Statement) (w : Work σ Ending) : Prop where
  session : (w.eval t).2.session = some (s.follow env.server plan .done).2
  well : ∀ o, (s.follow env.server plan .done).1 = .ok o →
    (w.eval t).1 = .ok (.exited 0 (printed o) "")
  badly : ∀ halt, (s.follow env.server plan .done).1 = .error halt →
    ∃ report, (w.eval t).1 = .error (halt.map report)

section
variable {env : Service.Environment σ} {d : Settings.Database} {s : Postgres.Session σ}

theorem sends_nothing {t : Trace σ} (opened : t.session = some s) :
    Sends env t s [] (pure (.exited 0 (printed .done) "")) :=
  ⟨opened, fun _ same => by cases same; rfl, nofun⟩

/-- Asking the store sends one statement. -/
theorem sends_ask {t : Trace σ} (opened : t.session = some s) {statement : Postgres.Statement}
    {call : {τ ε : Type} → Store τ ε → τ → Except ε α × τ} {outcome : α → Postgres.Outcome}
    (asks : s.send env.server statement =
      ((call (Postgres.store env.server) s).1.map outcome, (call (Postgres.store env.server) s).2))
    {finish : α → Work σ Ending}
    (finishes : ∀ a t, ∃ events, (finish a).eval t =
      (.ok (.exited 0 (printed (outcome a)) ""), { t with events := events })) :
    Sends env t s [statement] (ask env call >>= finish) := by
  have follows := (Postgres.Session.follow_singleton env.server statement .done s).trans asks
  obtain ⟨logged, asked⟩ := eval_ask env call opened
  rcases came : call (Postgres.store env.server) s with ⟨halt | a, after⟩
  · rw [came] at follows asked
    have ended := eval_bind_error asked finish
    refine ⟨by rw [ended, follows], fun o same => ?_, fun h same => ?_⟩
    · rw [follows] at same
      cases same
    · rw [follows] at same
      cases same
      exact ⟨_, by rw [ended]⟩
  · rw [came] at follows asked
    obtain ⟨events, finished⟩ := finishes a { t with events := logged, session := some after }
    have ended := (eval_bind_ok asked finish).trans finished
    refine ⟨by rw [ended, follows], fun o same => ?_, by rw [follows]; exact nofun⟩
    rw [follows] at same
    cases same
    rw [ended]

/-- Opening a session sends what makes the table, before anything else is sent. -/
theorem sends_open (connected : (Service.connect env d).2 = .ok s) (t : Trace σ)
    {rest : List Postgres.Statement} {next : Work σ Ending}
    (later : ∀ t s, t.session = some s → Sends env t s rest next) :
    Sends env t s ([.createTable, .createIndex] ++ rest)
      (openSession env d >>= fun _ => next) := by
  obtain ⟨events, opened⟩ := eval_openSession connected t
  have follows :=
    Postgres.Session.follow_append env.server [.createTable, .createIndex] rest .done s
  rw [Postgres.Session.follow_schema] at follows
  rcases prepared : s.ensureSchema env.server with ⟨halt | done, after⟩
  · rw [prepared] at opened follows
    have ended := eval_bind_error opened fun _ => next
    refine ⟨by rw [ended, follows]; rfl, fun o same => ?_, fun h same => ?_⟩
    · rw [follows] at same
      cases same
    · rw [follows] at same
      cases same
      exact ⟨_, by rw [ended]⟩
  · rw [prepared] at opened follows
    have goes := eval_bind_ok opened fun _ => next
    have further := later { t with events := events, session := some after } after rfl
    refine ⟨?_, ?_, ?_⟩
    · rw [goes, follows]
      exact further.session
    · rw [goes, follows]
      exact further.well
    · rw [goes, follows]
      exact further.badly

variable {stamp : Stamp} {i : Invocation}

theorem migrate_eq (durable : i.inMemory = false) :
    migrate env i =
      openSession env i.database >>= fun _ => pure (.exited 0 (printed .done) "") := by
  rw [migrate, durable]
  rfl

theorem openStore_eq (durable : i.inMemory = false) :
    openStore env i = openSession env i.database := by
  rw [openStore, durable]
  rfl

theorem record_eq {m : Measurement} (valid : m.Valid) (durable : i.inMemory = false) :
    record env stamp i m = openSession env i.database >>= fun _ =>
      ask env (fun store => store.create stamp m) >>= fun r => do
        log (storedEvents i r)
        return .exited 0 (printed (.stored r)) "" := by
  rw [record, Measurement.check_eq_ok_iff.mpr ⟨rfl, valid⟩, openStore_eq durable]
  rfl

theorem query_eq {name : Option String} (durable : i.inMemory = false) :
    query env i name = openSession env i.database >>= fun _ =>
      ask env (fun store => Api.find store name) >>= fun rs =>
        return .exited 0 (printed (.listed rs)) "" := by
  rw [query, openStore_eq durable]
  rfl

/-- A command that ends opens a session and then does what is left of its plan. -/
theorem perform_eq (env : Service.Environment σ) (stamp : Stamp) (durable : i.inMemory = false)
    (ends : i.order.Ends) (valid : ∀ m, i.order = .record m → m.Valid) :
    ∃ (next : Work σ Ending) (rest : List Postgres.Statement),
      perform env stamp i = (openSession env i.database >>= fun _ => next) ∧
      i.order.plan stamp = [.createTable, .createIndex] ++ rest ∧
      ∀ t s, t.session = some s → Sends env t s rest next := by
  unfold perform
  cases order : i.order with
  | serve cors sampleInterval =>
    rw [order] at ends
    cases ends
  | migrate => exact ⟨_, [], migrate_eq durable, rfl, fun t s opened => sends_nothing opened⟩
  | record m =>
    refine ⟨_, [.insert (.ofMeasurement m stamp)], record_eq (valid m order) durable, rfl,
      fun t s opened => ?_⟩
    exact sends_ask opened (s.send_insert env.server stamp m) fun r t => ⟨_, rfl⟩
  | query name =>
    cases name with
    | none =>
      refine ⟨_, [.selectAll], query_eq durable, rfl, fun t s opened => ?_⟩
      exact sends_ask opened (s.send_select env.server fun _ => rfl) fun rs t => ⟨_, rfl⟩
    | some name =>
      refine ⟨_, [.selectNamed name], query_eq durable, rfl, fun t s opened => ?_⟩
      exact sends_ask opened (s.send_select env.server fun _ => rfl) fun rs t => ⟨_, rfl⟩

/-- Every command that ends follows its plan over the session it opens. -/
theorem sends_perform (connected : (Service.connect env i.database).2 = .ok s) (stamp : Stamp)
    (durable : i.inMemory = false) (ends : i.order.Ends)
    (valid : ∀ m, i.order = .record m → m.Valid) :
    Sends env {} s (i.order.plan stamp) (perform env stamp i) := by
  obtain ⟨next, rest, opens, plan, later⟩ := perform_eq env stamp durable ends valid
  rw [opens, plan]
  exact sends_open connected {} later

/-! ## Refusals -/

/-- A command that cannot connect fails, and leaves no more than the events of connecting. -/
theorem eval_perform_error {events : List Log.Event} {f : Failure}
    (refused : Service.connect env i.database = (events, .error f))
    (durable : i.inMemory = false) (ends : i.order.Ends)
    (valid : ∀ m, i.order = .record m → m.Valid) :
    (perform env stamp i).eval {} =
      (.error (.failed (.during "failed to connect to the metric store" f)), { events }) := by
  obtain ⟨next, rest, opens, -, -⟩ := perform_eq env stamp durable ends valid
  rw [opens]
  exact eval_bind_error (eval_openSession_error refused {}) _

/-- A measurement that is not valid is refused before anything else is done. -/
theorem eval_record_invalid (stamp : Stamp) (i : Invocation) {m : Measurement}
    (invalid : ¬ m.Valid) :
    ∃ report, ∀ (σ : Type) (env : Service.Environment σ),
      (record env stamp i m).eval {} = (.error (.failed report), {}) := by
  cases checked : m.check with
  | ok n =>
    obtain ⟨rfl, valid⟩ := Measurement.check_eq_ok_iff.mp checked
    exact absurd valid invalid
  | error f =>
    refine ⟨.ofFailure (.invalid (.flaw f)), fun σ env => ?_⟩
    rw [record, checked]
    exact eval_bind_error rfl _

end

/-- The command cannot be done, whatever the database. -/
def Invocation.Flawed (i : Invocation) : Prop :=
  (∃ m, i.order = .record m ∧ ¬ m.Valid) ∨ Text.isBlank i.database.url = true ∨
    i.database.maxConnections = 0

theorem eval_perform_flawed {i : Invocation} (stamp : Stamp) (durable : i.inMemory = false)
    (ends : i.order.Ends) (flawed : i.Flawed) :
    ∃ report, ∀ (σ : Type) (env : Service.Environment σ),
      (perform env stamp i).eval {} = (.error (.failed report), {}) := by
  by_cases valid : ∀ m, i.order = .record m → m.Valid
  · have refused : ∃ f, i.database.check = .error f := by
      rw [Settings.Database.check]
      rcases flawed with ⟨m, order, invalid⟩ | blank | none
      · exact absurd (valid m order) invalid
      · exact ⟨_, if_pos blank⟩
      · rw [if_pos none]
        split
        · exact ⟨_, rfl⟩
        · exact ⟨_, rfl⟩
    obtain ⟨f, refused⟩ := refused
    have connecting (σ : Type) (env : Service.Environment σ) :
        Service.connect env i.database = ([], .error (.config f)) := by
      rw [Service.connect, refused]
    exact ⟨_, fun σ env => eval_perform_error (connecting σ env) durable ends valid⟩
  · obtain ⟨m, order, invalid⟩ : ∃ m, i.order = .record m ∧ ¬ m.Valid := by
      simpa using valid
    obtain ⟨report, fails⟩ := eval_record_invalid stamp i invalid
    refine ⟨report, fun σ env => ?_⟩
    rw [perform, order]
    exact fails σ env

theorem eval_perform_unconnected {env : Service.Environment σ} {i : Invocation} {f : Failure}
    (failed : (Service.connect env i.database).2 = .error f) (stamp : Stamp)
    (durable : i.inMemory = false) (ends : i.order.Ends) :
    ∃ report t, (perform env stamp i).eval {} = (.error (.failed report), t) ∧
      t.session = none := by
  by_cases valid : ∀ m, i.order = .record m → m.Valid
  · exact ⟨_, _, eval_perform_error (Prod.ext rfl failed) durable ends valid, rfl⟩
  · have flawed : i.Flawed := .inl (by simpa using valid)
    obtain ⟨report, fails⟩ := eval_perform_flawed stamp durable ends flawed
    exact ⟨report, _, fails σ env, rfl⟩

/-! ## Runs -/

namespace Run

/-- The lines that are logged. -/
def logs (r : Run) (clock : Nat → Instant) : String :=
  String.join (r.events.zipIdx.map fun (e, n) => e.lineAt (clock n))

/-- A run is over with a code, and puts a text behind what it logs. -/
structure Exits (r : Run) (code : Nat) (output : String) : Prop where
  ending : ∃ complaint, r.ending = .exited code output complaint
  standardOutput : ∀ clock, r.standardOutput clock = r.logs clock ++ output

theorem exits_of_ending {r : Run} {code : Nat} {output complaint : String}
    (h : r.ending = .exited code output complaint) : r.Exits code output :=
  ⟨⟨complaint, h⟩, fun clock => by rw [Run.standardOutput, h]; rfl⟩

/-- The run that the work for an invocation makes. -/
def ofWork (environment : String → Option String) (i : Invocation) :
    Except (Halt Report) Ending × Trace σ → Run
  | (result, t) =>
    { events := t.events.filter (i.filter environment).allows
      exchanges := (t.session.map (·.exchanges)).getD []
      filter := i.filter environment
      ending := match result with
        | .ok ending => ending
        | .error halt => .ofHalt halt }

theorem ending_ofWork {environment : String → Option String} {i : Invocation}
    {p : Except (Halt Report) Ending × Trace σ} {ending : Ending} (h : p.1 = .ok ending) :
    (ofWork environment i p).ending = ending := by
  obtain ⟨result, t⟩ := p
  cases h
  rfl

theorem ending_ofWork_error {environment : String → Option String} {i : Invocation}
    {p : Except (Halt Report) Ending × Trace σ} {halt : Halt Report} (h : p.1 = .error halt) :
    (ofWork environment i p).ending = .ofHalt halt := by
  obtain ⟨result, t⟩ := p
  cases h
  rfl

theorem exchanges_ofWork (environment : String → Option String) (i : Invocation)
    (p : Except (Halt Report) Ending × Trace σ) :
    (ofWork environment i p).exchanges = (p.2.session.map (·.exchanges)).getD [] := rfl

theorem run_eq {environment : String → Option String} {args : List String} {i : Invocation}
    (parsed : Invocation.parse environment args = .ok i) (env : Service.Environment σ)
    (stamp : Stamp) :
    run env environment stamp args = ofWork environment i ((perform env stamp i).eval {}) := by
  rw [run, parsed]
  rfl

end Run

/-- How a run that follows a plan ends is told by the last of its exchanges. -/
structure Work.Sends.Ends (env : Service.Environment σ) (s : σ) (plan : List Postgres.Statement)
    (r : Run) : Prop where
  follows : Postgres.Follows plan r.exchanges
  replied : r.exchanges.map (·.reply) = env.server.replies (r.exchanges.map (·.statement)) s
  well : ∀ x ∈ r.exchanges.getLast?, ∀ o, x.outcome = .ok o →
    r.ending = .exited 0 (printed o) ""
  badly : ∀ x ∈ r.exchanges.getLast?, ∀ halt, x.outcome = .error halt →
    ∃ report, r.ending = .ofHalt (halt.map report)

theorem Work.Sends.ends {env : Service.Environment σ} {s : Postgres.Session σ}
    {plan : List Postgres.Statement} {w : Work σ Ending} (h : Sends env {} s plan w)
    (fresh : s.exchanges = []) (environment : String → Option String) (i : Invocation) :
    Ends env s.server plan (Run.ofWork environment i (w.eval {})) := by
  obtain ⟨sent, follows, exchanges, replied, result⟩ := s.exists_follows env.server plan .done
  rw [fresh, List.nil_append] at exchanges
  have all : (Run.ofWork environment i (w.eval {})).exchanges = sent := by
    rw [Run.exchanges_ofWork, h.session, ← exchanges]
    rfl
  have came {x : Postgres.Exchange} (last : x ∈ sent.getLast?) :
      (s.follow env.server plan .done).1 = x.outcome :=
    result.trans (Postgres.outcomeOf_of_getLast? last .done)
  constructor
  · rwa [all]
  · rwa [all]
  · rw [all]
    intro x last o succeeded
    exact Run.ending_ofWork (h.well o ((came last).trans succeeded))
  · rw [all]
    intro x last halt stopped
    obtain ⟨report, fails⟩ := h.badly halt ((came last).trans stopped)
    exact ⟨report, Run.ending_ofWork_error fails⟩

/-- A session begins without exchanges. -/
theorem exchanges_of_connect {env : Service.Environment σ} {d : Settings.Database}
    {s : Postgres.Session σ} (h : (Service.connect env d).2 = .ok s) : s.exchanges = [] := by
  unfold Service.connect at h
  grind

theorem Order.plan_ne_nil (stamp : Stamp) (o : Order) : o.plan stamp ≠ [] := by
  rcases o with _ | _ | m | _ | name <;> simp [plan]

/-- A command that ends, over a database. It says nothing to the database and fails if it is flawed,
whatever the database, or cannot connect. Otherwise it sends its plan up to the first statement that
fails, in its texts and with its parameters. It exits with 0 and prints what the last statement
gave, behind the logs, if the plan is completed. Else it prints nothing more, and exits with 1, or
panics if a time that is no instant is what stops it. -/
theorem command_over_database (env : Service.Environment σ) (environment : String → Option String)
    (stamp : Stamp) (args : List String) {i : Invocation}
    (parsed : Invocation.parse environment args = .ok i) (durable : i.inMemory = false)
    (ends : i.order.Ends) :
    let r := run env environment stamp args
    let plan := i.order.plan stamp
    (i.Flawed → r.exchanges = [] ∧ r.Exits 1 "" ∧
      ∀ (τ : Type) (other : Service.Environment τ), run other environment stamp args = r) ∧
    (∀ f, (Service.connect env i.database).2 = .error f → r.exchanges = [] ∧ r.Exits 1 "") ∧
    ∀ s, (Service.connect env i.database).2 = .ok s → ¬ i.Flawed →
      Postgres.Progress env.server s.server plan r.exchanges ∧
      r.exchanges.map (fun x => (x.statement.sql, x.statement.parameters)) <+:
        i.order.texts stamp ∧
      (Postgres.Completes plan r.exchanges →
        ∃ x ∈ r.exchanges.getLast?, ∃ o, x.Gives o ∧ r.Exits 0 (printed o) ∧
          Says (printed o) o) ∧
      (¬ Postgres.Completes plan r.exchanges →
        ∃ x ∈ r.exchanges.getLast?, (∃ f, x.Fails f ∧ r.Exits 1 "") ∨
          ∃ text, x.Overflows text ∧ r.Exits 101 "") := by
  intro r plan
  have here : r = _ := Run.run_eq parsed env stamp
  refine ⟨fun flawed => ?_, fun f failed => ?_, fun s connected sound => ?_⟩
  · obtain ⟨report, fails⟩ := eval_perform_flawed stamp durable ends flawed
    rw [fails] at here
    refine ⟨by rw [here]; rfl, Run.exits_of_ending (by rw [here]; rfl), fun τ other => ?_⟩
    rw [here, Run.run_eq parsed, fails]
    rfl
  · obtain ⟨report, t, fails, closed⟩ := eval_perform_unconnected failed stamp durable ends
    rw [fails] at here
    refine ⟨?_, Run.exits_of_ending (by rw [here]; rfl)⟩
    rw [here, Run.exchanges_ofWork, closed]
    rfl
  · have valid (m : Measurement) (order : i.order = .record m) : m.Valid :=
      Classical.byContradiction fun invalid => sound (.inl ⟨m, order, invalid⟩)
    have sends := sends_perform connected stamp durable ends valid
    obtain ⟨follows, replied, well, badly⟩ :=
      sends.ends (exchanges_of_connect connected) environment i
    rw [← here] at follows replied well badly
    have said := follows.statements_prefix.map fun a => (a.sql, a.parameters)
    rw [List.map_map, ← i.order.texts_eq stamp] at said
    obtain ⟨x, last⟩ := follows.exists_getLast? (i.order.plan_ne_nil stamp)
    have decided := follows.completes_iff .done
    rw [Postgres.outcomeOf_of_getLast? last] at decided
    refine ⟨follows.progress (i.order.nodup_plan stamp) replied, said, fun completes => ?_,
      fun incomplete => ?_⟩
    · obtain ⟨o, gives⟩ := decided.mp completes
      exact ⟨x, last, o, Postgres.Exchange.outcome_eq_iff.mp gives,
        Run.exits_of_ending (well x last o gives), says_printed o⟩
    · refine ⟨x, last, ?_⟩
      rcases stops : x.outcome with ⟨f | text⟩ | o
      · obtain ⟨report, failed⟩ := badly x last _ stops
        exact .inl ⟨f, Postgres.Exchange.outcome_eq_iff.mp stops, Run.exits_of_ending failed⟩
      · obtain ⟨report, panicked⟩ := badly x last _ stops
        exact .inr ⟨text, Postgres.Exchange.outcome_eq_iff.mp stops, Run.exits_of_ending panicked⟩
      · exact absurd (decided.mpr ⟨o, stops⟩) incomplete

/-- A database that can be connected to and replies from a list. -/
def scripted (script : List Postgres.Reply) : Service.Environment (List Postgres.Reply) where
  server := .scripted
  connect _ := .ok script
  listen _ := .ok ()

def recordOne : Invocation where
  host := "0.0.0.0"
  port := 8080
  database := {}
  inMemory := false
  verbose := false
  debug := false
  order := .record ⟨"cpu_usage", "gauge", .ofNat 1⟩

theorem parse_recordOne :
    Invocation.parse (fun _ => none) ["record", "cpu_usage", "gauge", "1"] = .ok recordOne :=
  eq_ok_of_toOption (by decide +kernel)

theorem connect_scripted (script : List Postgres.Reply) :
    (Service.connect (scripted script) recordOne.database).2 = .ok ⟨script, []⟩ := by
  have understood : (Postgres.Destination.ofString recordOne.database.url).2.isOk = true := by
    decide +kernel
  have checked : recordOne.database.check = .ok () := by rfl
  rw [Service.connect, checked]
  rcases read : Postgres.Destination.ofString recordOne.database.url with ⟨unknown, f | destination⟩
  · rw [read] at understood
    cases understood
  · rfl

theorem recordOne_sound : ¬ recordOne.Flawed := by
  rintro (⟨m, order, invalid⟩ | blank | none)
  · cases order
    exact invalid ⟨by decide, by decide, by decide⟩
  · exact absurd blank (by decide +kernel)
  · exact absurd none (by decide)

/-- The row that the server gives back for a record is printed. -/
theorem stored_row_printed :
    let stored : Record := ⟨⟨1⟩, "cpu_usage", "gauge", .ofNat 1, default⟩
    (run (scripted [.rows [], .rows [], .rows [.ofRecord stored]]) (fun _ => none) ⟨⟨1⟩, default⟩
      ["record", "cpu_usage", "gauge", "1"]).Exits 0 (printed (.stored stored)) := by
  intro stored
  obtain ⟨-, -, sends⟩ := command_over_database
    (scripted [.rows [], .rows [], .rows [.ofRecord stored]]) (fun _ => none) ⟨⟨1⟩, default⟩
    ["record", "cpu_usage", "gauge", "1"] parse_recordOne rfl trivial
  obtain ⟨-, -, completed, -⟩ := sends _ (connect_scripted _) recordOne_sound
  have exchanges : (run (scripted [.rows [], .rows [], .rows [.ofRecord stored]]) (fun _ => none)
      ⟨⟨1⟩, default⟩ ["record", "cpu_usage", "gauge", "1"]).exchanges =
        [⟨.createTable, .rows []⟩, ⟨.createIndex, .rows []⟩,
          ⟨.insert stored, .rows [.ofRecord stored]⟩] := by
    decide +kernel
  have read : Postgres.Exchange.outcome ⟨.insert stored, .rows [.ofRecord stored]⟩ =
      .ok (.stored stored) := by
    have kept : stored.kept = stored := by decide
    have tells := Postgres.Row.tells_ofRecord (r := stored) (Instant.ofMicros?_micros (by decide))
    rw [kept] at tells
    exact Postgres.Exchange.outcome_eq_iff.mpr (.stored stored [] tells)
  rw [exchanges] at completed
  obtain ⟨x, last, o, gives, exits, -⟩ := completed ⟨rfl, by
    simp only [List.forall_mem_cons, List.not_mem_nil, false_implies, implies_true, and_true]
    exact ⟨⟨.done, rfl⟩, ⟨.done, rfl⟩, .stored stored, read⟩⟩
  obtain rfl := Option.some.inj last
  have comes : Postgres.Exchange.ComesTo _ (.ok o) := gives
  cases read.symm.trans comes.outcome_eq
  exact exits

/-- A row whose time is no instant ends a query in a panic, which is neither success nor failure. -/
theorem distant_row_exits :
    let r := run (scripted [.rows [], .rows [], .rows [Postgres.distantRow]]) (fun _ => none)
      ⟨⟨1⟩, default⟩ ["query"]
    r.exchanges.getLast?.map (·.reply) = some (.rows [Postgres.distantRow]) ∧ r.Exits 101 "" ∧
      ∀ output, ¬ r.Exits 0 output ∧ ¬ r.Exits 1 output := by
  intro r
  have ending : r.ending = .exited 101 "" (panicMessage Postgres.timeOverflow) := by
    decide +kernel
  have other (code : Nat) (differs : code ≠ 101) (output : String) : ¬ r.Exits code output := by
    rintro ⟨⟨complaint, same⟩, -⟩
    cases ending.symm.trans same
    exact differs rfl
  exact ⟨by decide +kernel, Run.exits_of_ending ending,
    fun output => ⟨other 0 (by decide) output, other 1 (by decide) output⟩⟩

end MetricLedger.Cli
