import Mathlib.Data.List.Forall2
import MetricLedger.Api.Routes

/-!
# Requests and the ledger

What a run of requests leaves in the ledger: its former records, and after them one record for each
answer that reports one, in the order of the answers. Every other answer leaves the ledger as it
was.
-/

namespace MetricLedger.Api

/-- A request of a run, the stamp kept ready for it, and its answer. -/
structure Exchange where
  stamp : Stamp
  request : Http.Request
  answer : Http.Answer

/-- Requests put together with their answers. -/
def exchanges (requests : List (Stamp × Http.Request)) (answers : List Http.Answer) :
    List Exchange :=
  requests.zipWith (fun (stamp, request) answer => ⟨stamp, request, answer⟩) answers

/-- The answer tells that a record was made. -/
def Exchange.IsCreated (e : Exchange) : Prop := e.answer.status = .created

instance (e : Exchange) : Decidable e.IsCreated :=
  inferInstanceAs (Decidable (e.answer.status = .created))

/-- A record is the one that an exchange reports: its JSON text is the body of the answer, and it
holds under the stamp what the bytes of the request's body are read as. -/
structure Exchange.Reports (e : Exchange) (r : Record) : Prop where
  body : e.answer.body = r.toJson.compact
  stamp : r.id = e.stamp.id ∧ r.createdAt = e.stamp.time
  submission : e.request.body.broken = none ∧ ∃ s : Submission,
    submissionOf e.request.body.chunks.flatten = .ok s ∧
      r.name = s.name ∧ r.type = s.type ∧ r.value = s.value

/-! ## One request -/

theorem measurementOf_ok {body : Http.Body} {m : Measurement} (h : measurementOf body = .ok m) :
    body.broken = none ∧ ∃ s, submissionOf body.chunks.flatten = .ok s ∧ m = s.measurement := by
  unfold measurementOf at h
  split at h
  · cases h
  · cases h
  · rename_i bytes read
    obtain ⟨unbroken, -, rfl⟩ := Http.Body.read_eq_ok_iff.mp read
    refine ⟨unbroken, ?_⟩
    split at h
    · cases h
    · rename_i s parsed
      refine ⟨s, parsed, ?_⟩
      cases checked : s.measurement.check with
      | error flaw => rw [checked] at h; cases h
      | ok n =>
        rw [checked] at h
        obtain ⟨rfl⟩ := h
        exact (Measurement.check_eq_ok_iff.mp checked).1

theorem Failure.answer_status_ne (f : Failure) : f.answer.status ≠ .created := by
  cases f <;> simp [Failure.answer, Failure.status, Http.Answer.json]

/-- A body is refused and nothing is stored, or its measurement is the last record. -/
theorem create_inMemory (stamp : Stamp) (body : Http.Body) (l : Ledger) :
    ((create Store.inMemory stamp body l).1.status ≠ .created ∧
      (create Store.inMemory stamp body l).2 = l) ∨
    ∃ m, measurementOf body = .ok m ∧ create Store.inMemory stamp body l =
      (.json .created (Record.ofMeasurement m stamp).toJson,
        l.append (Record.ofMeasurement m stamp)) := by
  unfold create
  split
  · exact .inl ⟨Failure.answer_status_ne _, rfl⟩
  · rename_i m read
    exact .inr ⟨m, read, rfl⟩

theorem list_inMemory (query : Bytes) (l : Ledger) :
    (list Store.inMemory query l).1.status ≠ .created ∧ (list Store.inMemory query l).2 = l := by
  unfold list
  split
  · exact ⟨Failure.answer_status_ne _, rfl⟩
  · rename_i name _
    cases name with
    | none => exact ⟨by simp [find, Store.inMemory, Http.Answer.json], rfl⟩
    | some name => exact ⟨by simp [find, Store.inMemory, Http.Answer.json], rfl⟩

/-- Every route but one leaves the ledger alone and reports no record. -/
theorem answerRoute_inMemory (stamp : Stamp) (r : Http.Request) (l : Ledger) {route : Route}
    (h : route ≠ .create) :
    (answerRoute Store.inMemory stamp r l route).1.status ≠ .created ∧
      (answerRoute Store.inMemory stamp r l route).2 = l := by
  cases route with
  | create => exact absurd rfl h
  | list => exact list_inMemory _ l
  | listHead => exact list_inMemory _ l
  | preflight known => exact ⟨by simp [answerRoute, Http.Answer.empty], rfl⟩
  | unknown => exact ⟨by simp [answerRoute, Http.Answer.empty], rfl⟩
  | notAllowed => exact ⟨by simp [answerRoute, Http.Answer.empty], rfl⟩

/-- What one request does to the ledger: nothing, or it appends the record that it reports. -/
theorem answer_inMemory (cors : Bool) (stamp : Stamp) (r : Http.Request) (l : Ledger) :
    (¬ Exchange.IsCreated ⟨stamp, r, (answer cors Store.inMemory stamp r l).1⟩ ∧
      (answer cors Store.inMemory stamp r l).2 = l) ∨
    ∃ made, Exchange.IsCreated ⟨stamp, r, (answer cors Store.inMemory stamp r l).1⟩ ∧
      Exchange.Reports ⟨stamp, r, (answer cors Store.inMemory stamp r l).1⟩ made ∧
      (answer cors Store.inMemory stamp r l).2 = l.append made := by
  unfold Exchange.IsCreated
  rw [answer_status, answer_state]
  by_cases created : route cors r.method r.target = .create
  · rw [created]
    rcases create_inMemory stamp r.body l with ⟨refused, same⟩ | ⟨m, read, made⟩
    · exact .inl ⟨refused, same⟩
    · obtain ⟨unbroken, s, parsed, rfl⟩ := measurementOf_ok read
      refine .inr ⟨Record.ofMeasurement s.measurement stamp, ?_, ⟨?_, ⟨rfl, rfl⟩, unbroken, s,
        parsed, rfl, rfl, rfl⟩, ?_⟩
      · simp [answerRoute, made, Http.Answer.json]
      · simp [answer_body, created, answerRoute, made, Http.Answer.json]
      · simp [answerRoute, made]
  · exact .inl (answerRoute_inMemory stamp r l created)

/-! ## Runs -/

theorem exchanges_cons (stamp : Stamp) (r : Http.Request) (rest : List (Stamp × Http.Request))
    (a : Http.Answer) (answers : List Http.Answer) :
    exchanges ((stamp, r) :: rest) (a :: answers) = ⟨stamp, r, a⟩ :: exchanges rest answers := rfl

theorem take_exchanges (requests : List (Stamp × Http.Request)) (answers : List Http.Answer)
    (n : Nat) :
    (exchanges requests answers).take n = exchanges (requests.take n) (answers.take n) :=
  List.take_zipWith

/-- The records made in a run are those that the answers report, in their order. -/
theorem run_inMemory (cors : Bool) (requests : List (Stamp × Http.Request)) (l : Ledger) :
    ∃ made, (run cors Store.inMemory requests l).2.records = l.records ++ made ∧
      List.Forall₂ Exchange.Reports
        ((exchanges requests (run cors Store.inMemory requests l).1).filter (·.IsCreated))
        made := by
  induction requests generalizing l with
  | nil => exact ⟨[], by simp [run], .nil⟩
  | cons x rest ih =>
    obtain ⟨stamp, r⟩ := x
    obtain ⟨made, records, reported⟩ := ih (answer cors Store.inMemory stamp r l).2
    rw [run_cons, exchanges_cons]
    rcases answer_inMemory cors stamp r l with ⟨refused, same⟩ | ⟨first, created, reports, appended⟩
    · refine ⟨made, by rw [records, same], ?_⟩
      rw [List.filter_cons_of_neg (by simpa using refused)]
      exact reported
    · refine ⟨first :: made, by rw [records, appended]; simp, ?_⟩
      rw [List.filter_cons_of_pos (by simpa using created)]
      exact .cons reports reported

/-- After any number of requests the ledger holds its former records and after them, one for each
answer that reports a record and in the order of these answers, the records reported. A request that
is answered otherwise leaves the ledger as it was. -/
theorem ledger_along_run (cors : Bool) (l : Ledger) (requests : List (Stamp × Http.Request))
    (n : Nat) :
    let answers := (run cors Store.inMemory requests l).1
    let ledger (k : Nat) := (run cors Store.inMemory (requests.take k) l).2
    answers.length = requests.length ∧
      (∃ made, (ledger n).records = l.records ++ made ∧ List.Forall₂ Exchange.Reports
        (((exchanges requests answers).take n).filter (·.IsCreated)) made) ∧
      ∀ e, (exchanges requests answers)[n]? = some e →
        (¬ e.IsCreated → ledger (n + 1) = ledger n) ∧
        (e.IsCreated → ∃ r, e.Reports r ∧ ledger (n + 1) = (ledger n).append r) := by
  intro answers ledger
  refine ⟨length_run .., ?_, ?_⟩
  · rw [take_exchanges, take_run]
    exact run_inMemory cors (requests.take n) l
  · intro e here
    have answered : answers.take (n + 1) = (run cors Store.inMemory (requests.take (n + 1)) l).1 :=
      take_run ..
    obtain ⟨⟨stamp, r⟩, a, request, reply, rfl⟩ := List.getElem?_zipWith_eq_some.mp here
    have next : requests.take (n + 1) = requests.take n ++ [(stamp, r)] := by
      rw [List.take_add_one, request]; rfl
    have goesOn : ledger (n + 1) = (answer cors Store.inMemory stamp r (ledger n)).2 := by
      simp only [ledger, next, run_append]; rfl
    -- Cut off behind this request, the run ends with its answer.
    have told : a = (answer cors Store.inMemory stamp r (ledger n)).1 := by
      have last : (answers.take (n + 1))[n]? = some a := by simpa using reply
      have before : (run cors Store.inMemory (requests.take n) l).1.length = n := by
        have := (List.getElem?_eq_some_iff.mp request).1
        simp; omega
      rw [answered, next, run_append, List.getElem?_append_right (by omega), before] at last
      simpa [run_cons, eq_comm] using last
    rw [goesOn, told]
    rcases answer_inMemory cors stamp r (ledger n) with
      ⟨refused, same⟩ | ⟨made, created, reports, appended⟩
    · exact ⟨fun _ => same, fun created => absurd created refused⟩
    · exact ⟨fun refused => absurd created refused, fun _ => ⟨made, reports, appended⟩⟩

end MetricLedger.Api
