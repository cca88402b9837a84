import Mathlib.Data.List.Forall2
import MetricLedger.Proofs.Postgres.Plan
import MetricLedger.Proofs.Postgres.Texts

/-!
# What requests send

Whatever is asked of a session and whatever the server replies, each request sends its own
statements and no others, once, and their texts are known. What is recorded or asked for stands in
the parameters: the texts are the same for any names, types and values, as long as the server
replies the same.
-/

namespace MetricLedger.Postgres

/-- What a request sends, whatever was sent before it and was replied to that. -/
def Request.Sends (stamp : Stamp) (sent : List Exchange) : Request → Prop
  | .ensureSchema =>
    ∃ x : Exchange, x.Says tableText [] ∧
      ((sent = [x] ∧ ∃ h, x.outcome = .error h) ∨
        ∃ y : Exchange, y.Says indexText [] ∧ sent = [x, y] ∧ x.outcome = .ok .done)
  | .create m =>
    ∃ x : Exchange, sent = [x] ∧ x.Says insertText
      [.uuid stamp.id, .text m.name, .text m.type, .double m.value, .timestamp stamp.time.micros]
  | .named name => ∃ x : Exchange, sent = [x] ∧ x.Says (selectText true) [.text name]
  | .all => ∃ x : Exchange, sent = [x] ∧ x.Says (selectText false) []

/-- The identifier that a statement inserts a record under. -/
def Statement.inserted? : Statement → Option Uuid
  | .insert r => some r.id
  | .createTable | .createIndex | .selectNamed _ | .selectAll => none

/-! ## One request -/

/-- What is sent inserts no more than what is planned. -/
theorem Follows.inserted {plan : List Statement} {sent : List Exchange} (h : Follows plan sent) :
    (sent.filterMap (·.statement.inserted?)).Sublist (plan.filterMap (·.inserted?)) := by
  have planned := h.statements_prefix.sublist.filterMap (·.inserted?)
  rw [List.filterMap_map] at planned
  exact planned

theorem Follows.singleton {statement : Statement} {sent : List Exchange}
    (h : Follows [statement] sent) : ∃ x, sent = [x] ∧ x.statement = statement := by
  cases h with
  | fails plan failed => exact ⟨_, rfl, rfl⟩
  | goes succeeded rest =>
    cases rest
    exact ⟨_, rfl, rfl⟩

theorem Exchange.says_of_eq {x : Exchange} {statement : Statement} (h : x.statement = statement) :
    x.Says statement.text statement.parameters :=
  h ▸ x.says

theorem Request.sends_of_follows {stamp : Stamp} {r : Request} {sent : List Exchange}
    (h : Follows (r.plan stamp) sent) : r.Sends stamp sent := by
  cases r with
  | ensureSchema =>
    cases h with
    | fails plan failed => exact ⟨_, Exchange.says_of_eq rfl, .inl ⟨rfl, _, failed⟩⟩
    | @goes _ reply o _ _ succeeded rest =>
      obtain ⟨y, rfl, index⟩ := rest.singleton
      have made : o = .done := by
        cases reply with
        | rejected report | failed report => cases succeeded
        | rows found => cases succeeded; rfl
      exact ⟨_, Exchange.says_of_eq rfl,
        .inr ⟨y, Exchange.says_of_eq index, rfl, made ▸ succeeded⟩⟩
  | create m =>
    obtain ⟨x, rfl, same⟩ := h.singleton
    exact ⟨x, rfl, Exchange.says_of_eq same⟩
  | named name =>
    obtain ⟨x, rfl, same⟩ := h.singleton
    exact ⟨x, rfl, Exchange.says_of_eq same⟩
  | all =>
    obtain ⟨x, rfl, same⟩ := h.singleton
    exact ⟨x, rfl, Exchange.says_of_eq same⟩

/-- Of what is planned only what records a measurement inserts, and it uses its own identifier,
once. -/
theorem Request.inserted_plan (stamp : Stamp) (r : Request) :
    ((r.plan stamp).filterMap (·.inserted?)).Sublist [stamp.id] := by
  cases r with
  | ensureSchema | named | all => exact List.nil_sublist _
  | create m => exact .refl _

/-! ## Requests of one kind -/

/-- Statements with one text, whose answers are read in one way. -/
structure Statement.Alike (a b : Statement) : Prop where
  sql : a.sql = b.sql
  read : ∀ rows, a.read rows = b.read rows

/-- Requests of one kind, whatever their names, types and values. -/
inductive Request.Alike : Request → Request → Prop
  | ensureSchema : Alike .ensureSchema .ensureSchema
  | create (m m' : Measurement) : Alike (.create m) (.create m')
  | named (name name' : String) : Alike (.named name) (.named name')
  | all : Alike .all .all

theorem Request.Alike.plans {r r' : Request} (h : r.Alike r') (stamp stamp' : Stamp) :
    List.Forall₂ Statement.Alike (r.plan stamp) (r'.plan stamp') := by
  cases h with
  | ensureSchema => exact .cons ⟨rfl, fun _ => rfl⟩ (.cons ⟨rfl, fun _ => rfl⟩ .nil)
  | create | named | all => exact .cons ⟨rfl, fun _ => rfl⟩ .nil

/-- The replies are the same, as far as both go. -/
def SameReplies : List Exchange → List Exchange → Prop
  | x :: xs, y :: ys => x.reply = y.reply ∧ SameReplies xs ys
  | [], _ | _, [] => True

theorem Statement.Alike.outcome_eq {a b : Statement} (h : a.Alike b) (reply : Reply) :
    Exchange.outcome ⟨a, reply⟩ = Exchange.outcome ⟨b, reply⟩ := by
  simp only [Exchange.outcome, h.read]

/-- Plans of one kind with the same replies come equally far. -/
theorem Follows.texts_eq {plan plan' : List Statement} {sent sent' rest rest' : List Exchange}
    (h : Follows plan sent) (h' : Follows plan' sent')
    (alike : List.Forall₂ Statement.Alike plan plan')
    (same : SameReplies (sent ++ rest) (sent' ++ rest')) :
    sent.map (·.statement.sql) = sent'.map (·.statement.sql) ∧ SameReplies rest rest' := by
  induction h generalizing plan' sent' with
  | done =>
    cases alike
    cases h'
    exact ⟨rfl, same⟩
  | fails plan failed =>
    cases alike with | cons first others
    cases h' with
    | fails plan' failed' => exact ⟨congrArg (fun text => [text]) first.sql, same.2⟩
    | goes succeeded' further' =>
      -- the same reply makes the other one fail too
      obtain ⟨rfl, -⟩ := same
      rw [first.outcome_eq, succeeded'] at failed
      cases failed
  | goes succeeded further ih =>
    cases alike with | cons first others
    cases h' with
    | fails plan' failed' =>
      obtain ⟨rfl, -⟩ := same
      rw [first.outcome_eq, failed'] at succeeded
      cases succeeded
    | goes succeeded' further' =>
      obtain ⟨texts, left⟩ := ih further' others same.2
      refine ⟨?_, left⟩
      rw [List.map_cons, List.map_cons, texts, first.sql]

/-! ## All requests -/

/-- What was sent for each of the requests. -/
abbrev FollowAll (requests : List (Stamp × Request)) (sent : List (List Exchange)) : Prop :=
  List.Forall₂ (fun p xs => Follows (p.2.plan p.1) xs) requests sent

theorem Session.exists_followAll (server : Server σ) (requests : List (Stamp × Request))
    (s : Session σ) :
    ∃ sent, FollowAll requests sent ∧
      (s.run server requests).2.exchanges = s.exchanges ++ sent.flatten := by
  induction requests generalizing s with
  | nil => exact ⟨[], .nil, (List.append_nil _).symm⟩
  | cons first requests ih =>
    obtain ⟨stamp, r⟩ := first
    obtain ⟨xs, follows, exchanges, -⟩ := s.exists_follows server (r.plan stamp) .done
    obtain ⟨sent, others, later⟩ := ih (r.perform server stamp s).2
    refine ⟨xs :: sent, .cons follows others, ?_⟩
    rw [Session.run, later, r.perform_eq_follow, exchanges, List.flatten_cons, List.append_assoc]

theorem FollowAll.texts_eq {requests requests' : List (Stamp × Request)}
    {sent sent' : List (List Exchange)} (h : FollowAll requests sent)
    (h' : FollowAll requests' sent')
    (alike : List.Forall₂ (fun p q : Stamp × Request => p.2.Alike q.2) requests requests')
    (same : SameReplies sent.flatten sent'.flatten) :
    sent.flatten.map (·.statement.sql) = sent'.flatten.map (·.statement.sql) := by
  induction h generalizing requests' sent' with
  | nil =>
    cases alike
    cases h'
    rfl
  | cons follows others ih =>
    cases alike with | cons first kinds
    cases h' with | cons follows' others'
    obtain ⟨texts, left⟩ := follows.texts_eq follows' (first.plans _ _) same
    simp only [List.flatten_cons, List.map_append, texts, ih others' kinds left]

theorem FollowAll.inserted {requests : List (Stamp × Request)} {sent : List (List Exchange)}
    (h : FollowAll requests sent) :
    (sent.flatten.filterMap (·.statement.inserted?)).Sublist (requests.map (·.1.id)) := by
  induction h with
  | nil => exact .slnil
  | cons follows others ih =>
    rw [List.flatten_cons, List.filterMap_append, List.map_cons, ← List.singleton_append]
    exact (follows.inserted.trans (Request.inserted_plan _ _)).append ih

/-- Each request sends its own statements, once and in its turn, whatever came of the others;
records are inserted under the identifiers of their stamps. Requests of the same kinds that get the
same replies send the same texts, whatever their names, types and values. -/
theorem requests_sent (server : Server σ) (s : Session σ) (requests : List (Stamp × Request)) :
    ∃ sent : List (List Exchange),
      (s.run server requests).2.exchanges = s.exchanges ++ sent.flatten ∧
      List.Forall₂ (fun p xs => p.2.Sends p.1 xs) requests sent ∧
      (sent.flatten.filterMap (·.statement.inserted?)).Sublist (requests.map (·.1.id)) ∧
      ∀ (τ : Type) (server' : Server τ) (s' : Session τ) (requests' : List (Stamp × Request))
        (sent' : List Exchange),
        List.Forall₂ (fun p q : Stamp × Request => p.2.Alike q.2) requests requests' →
        (s'.run server' requests').2.exchanges = s'.exchanges ++ sent' →
        SameReplies sent.flatten sent' →
        sent.flatten.map (·.statement.sql) = sent'.map (·.statement.sql) := by
  obtain ⟨sent, follows, exchanges⟩ := s.exists_followAll server requests
  refine ⟨sent, exchanges, follows.imp fun _ _ h => Request.sends_of_follows h,
    follows.inserted, ?_⟩
  intro τ server' s' requests' sent' alike later same
  obtain ⟨others, follows', exchanges'⟩ := s'.exists_followAll server' requests'
  obtain rfl : others.flatten = sent' := List.append_cancel_left (exchanges'.symm.trans later)
  exact follows.texts_eq follows' alike same

/-- Makes the table, and then records and asks for a name. -/
def recordAndAsk (name : String) : List (Stamp × Request) :=
  [(⟨⟨0⟩, default⟩, .ensureSchema), (⟨⟨1⟩, default⟩, .create ⟨name, "gauge", .ofNat 1⟩),
    (⟨⟨2⟩, default⟩, .named name)]

/-- A name that looks like a statement does not show in the texts. -/
theorem hostile_name_sent :
    let report : ServerReport := ⟨"ERROR", "53100", "disk full"⟩
    let s : Session (List Reply) := ⟨[.rows [], .rows [], .failed report], []⟩
    let plain := (s.run .scripted (recordAndAsk "cpu_usage")).2.exchanges
    let hostile := (s.run .scripted (recordAndAsk "'; DROP TABLE system_metrics; --")).2.exchanges
    plain.length = 4 ∧ plain ≠ hostile ∧
      plain.map (·.statement.sql) = hostile.map (·.statement.sql) := by
  intro report s plain hostile
  obtain ⟨sent, exchanges, -, -, texts⟩ := requests_sent .scripted s (recordAndAsk "cpu_usage")
  have same : plain = sent.flatten := exchanges
  refine ⟨by decide, by decide, ?_⟩
  rw [same]
  refine texts _ .scripted s _ hostile ?_ rfl ?_
  · exact .cons .ensureSchema (.cons (.create _ _) (.cons (.named _ _) .nil))
  · rw [← same]
    exact ⟨rfl, rfl, rfl, rfl, trivial⟩

end MetricLedger.Postgres
