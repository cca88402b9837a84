import MetricLedger.Api.Routes
import MetricLedger.Proofs.Http.Form
import MetricLedger.Proofs.Metric.Record

/-!
# Queries and the records listed

What a query lists, told by the names it asks for: the texts of its parameters `metric_name`. Only
these names count, neither their order nor how they are spelled nor what else the query holds.
-/

namespace MetricLedger.Api

open Http.Form (Query)

/-- The names that the parameters of a query ask for. -/
def names (ps : List (Bytes × Bytes)) : List String :=
  (ps.filter fun p => Http.Form.text p.1 == "metric_name").map fun p => Http.Form.text p.2

/-- A request for records. -/
def listing (query : Option Bytes) (headers : List Http.Header) (body : Http.Body) : Http.Request :=
  ⟨.get, ⟨path, query⟩, headers, body⟩

/-- An answer that lists records: their text on one line, which reads as the list of their members
and as nothing else. -/
structure Lists (a : Http.Answer) (rs : List Record) : Prop where
  status : a.status = .ok
  body : a.body = (Record.listJson rs).compact
  told : Record.AreTold rs a.body

theorem lists_of_body {a : Http.Answer} {rs : List Record} (status : a.status = .ok)
    (body : a.body = (Record.listJson rs).compact) : Lists a rs :=
  ⟨status, body, body ▸ Record.areTold_compact rs⟩

/-- An answer that refuses a request, with a message of its own. -/
def Refuses (a : Http.Answer) : Prop :=
  a.status = .badRequest ∧ ∃ message : String, a.body =
    (Json.Value.object [("error", .text "INVALID_REQUEST"), ("message", .text message)]).compact

theorem values_eq_names {q : Bytes} {ps : List (Bytes × Bytes)} (h : Query q ps) :
    Http.Form.values "metric_name" q = names ps := by
  rw [Http.Form.values, h.parameters, List.filter_map, List.map_map]
  rfl

theorem refuses_answer (fault : RequestFault) : Refuses (Failure.invalid fault).answer :=
  ⟨rfl, (Failure.invalid fault).message, rfl⟩

/-! ## What is selected -/

section
variable {q : Bytes} {ps : List (Bytes × Bytes)}

theorem selection_of_none (h : Query q ps) (all : names ps = []) : selection q = .ok none := by
  simp [selection, values_eq_names h, all]

theorem selection_of_one (h : Query q ps) {n : String} (one : names ps = [n])
    (shown : Text.isBlank n = false) : selection q = .ok (some n) := by
  simp [selection, values_eq_names h, one, shown]

theorem selection_of_blank (h : Query q ps) {n : String} (one : names ps = [n])
    (blank : Text.isBlank n = true) : selection q = .error (.invalid (.flaw .blankName)) := by
  simp [selection, values_eq_names h, one, blank]

theorem selection_of_many (h : Query q ps) (many : 2 ≤ (names ps).length) :
    selection q = .error (.invalid (.repeatedParameter "metric_name")) := by
  match all : names ps with
  | [] | [_] => simp [all] at many
  | _ :: _ :: _ => simp [selection, values_eq_names h, all]

/-- A query that is refused is at fault itself. -/
theorem invalid_of_selection {f : Failure} (h : selection q = .error f) :
    ∃ fault, f = .invalid fault := by
  unfold selection at h
  split at h
  · cases h
  · split at h <;> cases h
    exact ⟨_, rfl⟩
  · cases h
    exact ⟨_, rfl⟩

/-- The names decide what is selected, in whatever order they are asked for. -/
theorem selection_perm {q' : Bytes} {ps' : List (Bytes × Bytes)} (h : Query q ps)
    (h' : Query q' ps') (perm : (names ps').Perm (names ps)) : selection q' = selection q := by
  match all : names ps with
  | [] => rw [selection_of_none h all, selection_of_none h' (List.perm_nil.mp (all ▸ perm))]
  | [n] =>
    have same : names ps' = [n] := List.perm_singleton.mp (all ▸ perm)
    simp [selection, values_eq_names h, values_eq_names h', all, same]
  | _ :: _ :: _ =>
    have many : 2 ≤ (names ps).length := by simp [all]
    rw [selection_of_many h many, selection_of_many h' (perm.length_eq ▸ many)]

end

/-! ## What is answered -/

theorem route_listing (cors : Bool) (query : Option Bytes) :
    route cors .get ⟨path, query⟩ = .list := by
  simp [route]

theorem answer_listing (cors : Bool) (store : Store σ) (stamp : Stamp) (query : Option Bytes)
    (headers : List Http.Header) (body : Http.Body) (s : σ) :
    (answer cors store stamp (listing query headers body) s).1.status =
        (list store (query.getD []) s).1.status ∧
      (answer cors store stamp (listing query headers body) s).1.body =
        (list store (query.getD []) s).1.body := by
  rw [answer_status, answer_body, listing, route_listing]
  exact ⟨rfl, rfl⟩

theorem list_all {query : Bytes} (h : selection query = .ok none) (l : Ledger) :
    list Store.inMemory query l = (.json .ok (Record.listJson l.records), l) := by
  simp [list, h, find, Store.inMemory]

theorem list_named {query : Bytes} {n : String} (h : selection query = .ok (some n)) (l : Ledger) :
    list Store.inMemory query l = (.json .ok (Record.listJson (l.named n)), l) := by
  simp [list, h, find, Store.inMemory]

theorem list_refused {query : Bytes} {f : Failure} (h : selection query = .error f)
    (store : Store σ) (s : σ) : list store query s = (f.answer, s) := by
  simp [list, h]

/-- What is listed depends on the selection alone. -/
theorem list_congr {query query' : Bytes} (h : selection query' = selection query)
    (store : Store σ) (s : σ) : list store query' s = list store query s := by
  rw [list, h, list]

/-- A request for records is answered with the records of the one name that its query asks for, with
all records where it asks for none, and is refused where it asks for a blank name or for several;
records are left as they are. Queries that ask for the same names in any order get one answer. -/
theorem listing_by_names (cors : Bool) (stamp : Stamp) (query : Option Bytes)
    (headers : List Http.Header) (body : Http.Body) (l : Ledger) :
    let respond (query : Option Bytes) :=
      answer cors Store.inMemory stamp (listing query headers body) l
    (∃ ps, Query (query.getD []) ps) ∧ ∀ ps, Query (query.getD []) ps →
      (respond query).2 = l ∧
      (names ps = [] → Lists (respond query).1 l.records) ∧
      (∀ n, names ps = [n] → Text.isBlank n = false →
        Lists (respond query).1 (l.records.filter (·.name = n))) ∧
      ((∃ n, names ps = [n] ∧ Text.isBlank n = true) ∨ 2 ≤ (names ps).length →
        Refuses (respond query).1) ∧
      ∀ query' ps', Query (query'.getD []) ps' → (names ps').Perm (names ps) →
        respond query' = respond query := by
  intro respond
  refine ⟨Http.Form.exists_query _, fun ps h => ⟨?_, ?_, ?_, ?_, ?_⟩⟩
  · rw [answer_state]
    simp only [listing, route_listing, answerRoute]
    cases chosen : selection (query.getD []) with
    | error f => rw [list_refused chosen]
    | ok name =>
      cases name with
      | none => rw [list_all chosen]
      | some n => rw [list_named chosen]
  · intro none
    obtain ⟨status, text⟩ := answer_listing cors Store.inMemory stamp query headers body l
    rw [list_all (selection_of_none h none)] at status text
    exact lists_of_body status text
  · intro n one shown
    obtain ⟨status, text⟩ := answer_listing cors Store.inMemory stamp query headers body l
    rw [list_named (selection_of_one h one shown)] at status text
    exact lists_of_body status text
  · intro wrong
    obtain ⟨status, text⟩ := answer_listing cors Store.inMemory stamp query headers body l
    obtain ⟨fault, refused⟩ : ∃ fault, selection (query.getD []) = .error (.invalid fault) := by
      rcases wrong with ⟨n, one, blank⟩ | many
      · exact ⟨_, selection_of_blank h one blank⟩
      · exact ⟨_, selection_of_many h many⟩
    rw [list_refused refused] at status text
    obtain ⟨bad, message, told⟩ := refuses_answer fault
    exact ⟨status.trans bad, message, text.trans told⟩
  · intro query' ps' h' perm
    have same := list_congr (selection_perm h h' perm) Store.inMemory l
    simp only [respond, answer, listing, route_listing, answerRoute, same]

end MetricLedger.Api
