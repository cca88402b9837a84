import MetricLedger.Postgres.Plan

/-!
# Following a plan

The exchanges of a plan are those of its statements, in their order, up to the first that fails.
Every request is done by following its plan, so a session never sends anything else.
-/

namespace MetricLedger.Postgres

/-- A server that replies what is on a list, whatever it is sent, and has no rows when the list is
over. -/
def Server.scripted : Server (List Reply) where
  answer
    | _, [] => (.rows [], [])
    | _, reply :: rest => (reply, rest)

/-- Exchanges that go through a plan up to the first statement that fails. -/
inductive Follows : List Statement → List Exchange → Prop
  | done : Follows [] []
  | fails {statement : Statement} {reply : Reply} {h : Halt StoreFault} (plan : List Statement)
    (failed : Exchange.outcome ⟨statement, reply⟩ = .error h) :
    Follows (statement :: plan) [⟨statement, reply⟩]
  | goes {statement : Statement} {reply : Reply} {o : Outcome} {plan : List Statement}
    {sent : List Exchange} (succeeded : Exchange.outcome ⟨statement, reply⟩ = .ok o)
    (rest : Follows plan sent) : Follows (statement :: plan) (⟨statement, reply⟩ :: sent)

namespace Follows

variable {plan : List Statement} {sent : List Exchange}

theorem statements_prefix (h : Follows plan sent) : sent.map (·.statement) <+: plan := by
  induction h with
  | done => exact List.nil_prefix
  | fails plan failed => exact ⟨plan, rfl⟩
  | goes succeeded rest ih => exact List.prefix_cons_inj _ |>.mpr ih

theorem succeeds_of_mem_dropLast (h : Follows plan sent) :
    ∀ x ∈ sent.dropLast, ∃ o, x.outcome = .ok o := by
  induction h with
  | done => simp
  | fails plan failed => simp
  | @goes statement reply o plan sent succeeded rest ih =>
    cases sent with
    | nil => simp
    | cons y sent =>
      rw [List.dropLast_cons_cons, List.forall_mem_cons]
      exact ⟨⟨o, succeeded⟩, ih⟩

/-- Of a plan something is sent. -/
theorem exists_getLast? (h : Follows plan sent) (some : plan ≠ []) : ∃ x, x ∈ sent.getLast? := by
  cases h with
  | done => exact absurd rfl some
  | fails | goes => exact ⟨_, List.getLast?_eq_some_getLast (List.cons_ne_nil _ _)⟩

theorem whole_or_fails (h : Follows plan sent) :
    sent.map (·.statement) = plan ∨ ∃ x ∈ sent.getLast?, ∃ h, x.outcome = .error h := by
  induction h with
  | done => exact .inl rfl
  | fails plan failed => exact .inr ⟨_, rfl, _, failed⟩
  | goes succeeded rest ih =>
    rcases ih with whole | ⟨last, mem, failed⟩
    · exact .inl (congrArg _ whole)
    · refine .inr ⟨last, ?_, failed⟩
      rw [List.getLast?_cons, mem]
      rfl

end Follows

/-- What comes of exchanges: what came of the last of them. -/
def outcomeOf (last : Outcome) (sent : List Exchange) : Result Outcome :=
  (sent.getLast?.map Exchange.outcome).getD (.ok last)

theorem outcomeOf_cons {x : Exchange} {o last : Outcome} (succeeded : x.outcome = .ok o)
    (sent : List Exchange) : outcomeOf last (x :: sent) = outcomeOf o sent := by
  rw [outcomeOf, outcomeOf, List.getLast?_cons, ← succeeded]
  cases sent.getLast? <;> rfl

theorem outcomeOf_of_getLast? {sent : List Exchange} {x : Exchange} (mem : x ∈ sent.getLast?)
    (last : Outcome) : outcomeOf last sent = x.outcome := by
  rw [outcomeOf, mem]
  rfl

/-- All of a plan is sent, and no statement fails. -/
def Completes (plan : List Statement) (sent : List Exchange) : Prop :=
  sent.map (·.statement) = plan ∧ ∀ x ∈ sent, ∃ o, x.outcome = .ok o

theorem Follows.completes_iff {plan : List Statement} {sent : List Exchange}
    (h : Follows plan sent) (last : Outcome) :
    Completes plan sent ↔ ∃ o, outcomeOf last sent = .ok o := by
  induction h generalizing last with
  | done => simp [Completes, outcomeOf]
  | fails plan failed => simp [Completes, outcomeOf, failed]
  | goes succeeded rest ih =>
    rw [outcomeOf_cons succeeded, ← ih, Completes, Completes, List.map_cons, List.forall_mem_cons]
    simp [succeeded]

/-- How far a session has come in a plan. -/
structure Progress (server : Server σ) (s : σ) (plan : List Statement) (sent : List Exchange) :
    Prop where
  planned : sent.map (·.statement) <+: plan
  once : (sent.map (·.statement)).Nodup
  replied : sent.map (·.reply) = server.replies (sent.map (·.statement)) s
  /-- Nothing is sent after a statement that fails. -/
  succeeds : ∀ x ∈ sent.dropLast, ∃ o, x.outcome = .ok o
  /-- What is not sent is not sent because the last statement failed. -/
  stops : sent.map (·.statement) = plan ∨ ∃ x ∈ sent.getLast?, ∃ h, x.outcome = .error h

theorem Follows.progress {plan : List Statement} {sent : List Exchange} (h : Follows plan sent)
    (distinct : plan.Nodup) {server : Server σ} {s : σ}
    (replied : sent.map (·.reply) = server.replies (sent.map (·.statement)) s) :
    Progress server s plan sent :=
  ⟨h.statements_prefix, distinct.sublist h.statements_prefix.sublist, replied,
    h.succeeds_of_mem_dropLast, h.whole_or_fails⟩

namespace Session

theorem send_eq (server : Server σ) (statement : Statement) (s : Session σ) :
    s.send server statement =
      (Exchange.outcome ⟨statement, (server.answer statement s.server).1⟩,
        ⟨(server.answer statement s.server).2,
          s.exchanges ++ [⟨statement, (server.answer statement s.server).1⟩]⟩) := rfl

/-- A plan is followed with what the server replies, and what comes of it is what came of the last
exchange. -/
theorem exists_follows (server : Server σ) (plan : List Statement) (last : Outcome)
    (s : Session σ) :
    ∃ sent, Follows plan sent ∧
      (s.follow server plan last).2.exchanges = s.exchanges ++ sent ∧
      sent.map (·.reply) = server.replies (sent.map (·.statement)) s.server ∧
      (s.follow server plan last).1 = outcomeOf last sent := by
  induction plan generalizing last s with
  | nil => exact ⟨[], .done, (List.append_nil _).symm, rfl, rfl⟩
  | cons statement plan ih =>
    rw [follow, send_eq]
    generalize replied : server.answer statement s.server = answer
    obtain ⟨reply, after⟩ := answer
    have first : server.replies [statement] s.server = [reply] := by
      rw [Server.replies, replied]
      rfl
    cases came : Exchange.outcome ⟨statement, reply⟩ with
    | error f => exact ⟨[⟨statement, reply⟩], .fails plan came, rfl, first.symm, came.symm⟩
    | ok o =>
      obtain ⟨sent, follows, exchanges, replies, result⟩ :=
        ih o ⟨after, s.exchanges ++ [⟨statement, reply⟩]⟩
      refine ⟨⟨statement, reply⟩ :: sent, .goes came follows, ?_, ?_, ?_⟩
      · rw [exchanges, List.append_assoc, List.singleton_append]
      · rw [List.map_cons, List.map_cons, Server.replies, replied, replies]
      · rw [result, outcomeOf_cons came]

theorem follow_append (server : Server σ) (p q : List Statement) (last : Outcome)
    (s : Session σ) :
    s.follow server (p ++ q) last =
      match s.follow server p last with
      | (.error f, s) => (.error f, s)
      | (.ok last, s) => s.follow server q last := by
  induction p generalizing last s with
  | nil => rfl
  | cons statement p ih =>
    rw [List.cons_append, follow, follow]
    rcases s.send server statement with ⟨f | o, after⟩
    · rfl
    · exact ih o after

theorem follow_singleton (server : Server σ) (statement : Statement) (last : Outcome)
    (s : Session σ) : s.follow server [statement] last = s.send server statement := by
  rw [follow]
  rcases s.send server statement with ⟨f | o, after⟩ <;> rfl

theorem send_insert (server : Server σ) (stamp : Stamp) (m : Measurement) (s : Session σ) :
    s.send server (.insert (.ofMeasurement m stamp)) =
      ((s.create server stamp m).1.map .stored, (s.create server stamp m).2) := by
  rw [send, create]
  rcases s.execute server (.insert (.ofMeasurement m stamp)) with ⟨f | rows, after⟩
  · rfl
  · cases rows with
    | nil => rfl
    | cons row rows => simp only [Except.bind, Statement.read]

theorem send_select (server : Server σ) {statement : Statement}
    (lists : ∀ rows, statement.read rows = (rows.mapM Row.record).map .listed) (s : Session σ) :
    s.send server statement =
      ((s.select server statement).1.map .listed, (s.select server statement).2) := by
  rw [send, select]
  rcases s.execute server statement with ⟨f | rows, after⟩
  · rfl
  · simp only [Except.bind, lists]

theorem follow_schema (server : Server σ) (last : Outcome) (s : Session σ) :
    s.follow server [.createTable, .createIndex] last =
      ((s.ensureSchema server).1.map fun _ => .done, (s.ensureSchema server).2) := by
  rw [follow, send, ensureSchema]
  rcases s.execute server .createTable with ⟨f | rows, after⟩
  · rfl
  · simp only [Except.bind, Statement.read, follow_singleton, send]
    rcases after.execute server .createIndex with ⟨f | rows, after⟩ <;> rfl

end Session

/-- Every request is done by following its plan. -/
theorem Request.perform_eq_follow (server : Server σ) (stamp : Stamp) (s : Session σ)
    (r : Request) : r.perform server stamp s = s.follow server (r.plan stamp) .done := by
  cases r with
  | ensureSchema => exact (Session.follow_schema server .done s).symm
  | create m => rw [plan, Session.follow_singleton, Session.send_insert]; rfl
  | named name => rw [plan, Session.follow_singleton, Session.send_select server fun _ => rfl]; rfl
  | all => rw [plan, Session.follow_singleton, Session.send_select server fun _ => rfl]; rfl

end MetricLedger.Postgres
