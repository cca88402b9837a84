import MetricLedger.Api.Routes
import MetricLedger.Proofs.Json.Quoting

/-!
# Bodies that arrive in pieces

How many bytes have come decides what becomes of a body, not how they are cut into chunks. A body
that goes over the limit is too large even if it would break off later, one that breaks off within
the limit is refused whatever has come of it, and any other is its bytes and nothing else.
-/

namespace MetricLedger

namespace Http.Body

/-- What gathering comes to, without a look at single chunks. -/
theorem gather_eq (broken : Option String) (room : Nat) (done chunks : List Bytes) :
    gather broken room done chunks =
      if room < chunks.flatten.length then .error .tooLarge
      else match broken with
        | some text => .error (.broken text)
        | none => .ok (done.reverse.flatten ++ chunks.flatten) := by
  induction chunks generalizing room done with
  | nil => cases broken <;> simp [gather]
  | cons chunk chunks ih =>
    rw [gather]
    by_cases exceeds : room < chunk.length
    · have total : room < (chunk :: chunks).flatten.length := by
        rw [List.flatten_cons, List.length_append]; omega
      rw [if_pos exceeds, if_pos total]
    · have left : room - chunk.length < chunks.flatten.length ↔
          room < (chunk :: chunks).flatten.length := by
        rw [List.flatten_cons, List.length_append]; omega
      simp only [if_neg exceeds, ih, left, List.reverse_cons, List.flatten_append,
        List.flatten_cons, List.flatten_nil, List.append_nil, List.append_assoc]

theorem read_eq (limit : Nat) (b : Body) :
    b.read limit =
      if limit < b.chunks.flatten.length then .error .tooLarge
      else match b.broken with
        | some text => .error (.broken text)
        | none => .ok b.chunks.flatten :=
  gather_eq b.broken limit [] b.chunks

/-- Going over a limit is seen from the first chunks that together do. -/
theorem exists_prefix_iff {limit : Nat} {chunks : List Bytes} :
    (∃ before, before <+: chunks ∧ limit < before.flatten.length) ↔
      limit < chunks.flatten.length := by
  constructor
  · rintro ⟨before, ⟨after, rfl⟩, exceeds⟩
    rw [List.flatten_append, List.length_append]
    omega
  · intro exceeds
    exact ⟨chunks, List.prefix_refl chunks, exceeds⟩

end Http.Body

namespace Api

/-- A request to record what a body holds. -/
def recording (query : Option Bytes) (headers : List Http.Header) (body : Http.Body) :
    Http.Request :=
  ⟨.post, ⟨path, query⟩, headers, body⟩

/-- An answer that reports a failure under a code, with a message of its own. -/
def Fails (a : Http.Answer) (status : Http.Status) (code : String) : Prop :=
  a.status = status ∧ ∃ message : String, a.body =
    (Json.Value.object [("error", .text code), ("message", .text message)]).compact

/-- An answer that blames the body for not arriving: it was too large, or broke off. -/
def BlamesArrival (a : Http.Answer) : Prop :=
  a.body = (Failure.tooLarge .body).toJson.compact ∨
    ∃ text, a.body = (Failure.invalid (.brokenBody text)).toJson.compact

theorem fails_answer (f : Failure) : Fails f.answer f.status f.code := ⟨rfl, f.message, rfl⟩

/-- The text of a failure shows its code and its message. -/
theorem failure_text_inj {f g : Failure} (h : f.toJson.compact = g.toJson.compact) :
    f.code = g.code ∧ f.message = g.message := by
  obtain ⟨-, first⟩ := Json.compact_object_inj h
  obtain ⟨code, rest⟩ := Json.quote_append_inj first
  simp only [Json.moreMembers, Json.onOneLine, List.nil_append, List.cons_append,
    List.append_assoc, List.cons.injEq, true_and] at rest
  obtain ⟨-, second⟩ := Json.quote_append_inj rest
  obtain ⟨message, -⟩ := Json.quote_append_inj (List.cons.inj second).2
  exact ⟨code, message⟩

theorem record_text_ne (r : Record) (f : Failure) : r.toJson.compact ≠ f.toJson.compact := by
  intro h
  exact absurd (Json.compact_object_inj h).1 (by decide)

theorem head_append {a : String} {c : Char} (h : a.toList.head? = some c) (b : String) :
    (a ++ b).toList.head? = some c := by
  rw [String.toList_append, List.head?_append, h]
  rfl

/-- A body that did not arrive is told of in words that no other refusal begins with. -/
theorem message_ne_broken {fault : RequestFault}
    (h : (∃ located, fault = .malformed located) ∨ ∃ flaw, fault = .flaw flaw) (text : String) :
    (Failure.invalid fault).message ≠ (Failure.invalid (.brokenBody text)).message := by
  intro same
  have words : fault.message = (RequestFault.brokenBody text).message :=
    (String.append_right_inj "Invalid request: ").mp same
  have broken : (RequestFault.brokenBody text).message.toList.head? = some 'F' :=
    head_append (a := "Failed to buffer the request body: ") (by decide) text
  have other : fault.message.toList.head? = some 'm' ∨ fault.message.toList.head? = some 'v' := by
    rcases h with ⟨located, rfl⟩ | ⟨flaw, rfl⟩
    · exact .inl (head_append (a := "malformed metric payload: ") (by decide) located.message)
    · cases flaw
      · exact .inl (by decide)
      · exact .inl (by decide)
      · exact .inr (by decide)
  rw [words, broken] at other
  revert other
  decide

/-! ## What a body asks to record -/

theorem measurementOf_tooLarge {body : Http.Body}
    (exceeds : bodyLimit < body.chunks.flatten.length) :
    measurementOf body = .error (.tooLarge .body) := by
  rw [measurementOf, Http.Body.read_eq, if_pos exceeds]

theorem measurementOf_broken {body : Http.Body} (fits : body.chunks.flatten.length ≤ bodyLimit)
    {text : String} (broken : body.broken = some text) :
    measurementOf body = .error (.invalid (.brokenBody text)) := by
  rw [measurementOf, Http.Body.read_eq, if_neg (Nat.not_lt.mpr fits), broken]

/-- Only the bytes of a body count. -/
theorem measurementOf_congr {body other : Http.Body} (unbroken : body.broken = none)
    (whole : other.broken = none) (same : other.chunks.flatten = body.chunks.flatten) :
    measurementOf other = measurementOf body := by
  rw [measurementOf, measurementOf, Http.Body.read_eq, Http.Body.read_eq, unbroken, whole, same]

/-- A body that is a submission asks to record its measurement, if that is valid. -/
theorem measurementOf_submission {body : Http.Body} {text : Bytes} {s : Submission}
    (unbroken : body.broken = none) (bytes : body.chunks.flatten = text)
    (fits : text.length ≤ bodyLimit) (read : submissionOf text = .ok s) :
    measurementOf body = s.measurement.check.mapError fun flaw => .invalid (.flaw flaw) := by
  rw [measurementOf, Http.Body.read_eq, bytes, if_neg (Nat.not_lt.mpr fits), unbroken]
  dsimp only
  rw [read]

/-- A body that has arrived is refused, if at all, for what its bytes are. -/
theorem measurementOf_arrived {body : Http.Body} (fits : body.chunks.flatten.length ≤ bodyLimit)
    (unbroken : body.broken = none) {f : Failure} (refused : measurementOf body = .error f) :
    (∃ located, f = .invalid (.malformed located)) ∨ ∃ flaw, f = .invalid (.flaw flaw) := by
  rw [measurementOf, Http.Body.read_eq, if_neg (Nat.not_lt.mpr fits), unbroken] at refused
  dsimp only at refused
  unfold submissionOf at refused
  cases parsed : Submission.ofJson body.chunks.flatten with
  | error located =>
    rw [parsed] at refused
    cases refused
    exact .inl ⟨located, rfl⟩
  | ok submission =>
    rw [parsed] at refused
    dsimp only [Except.mapError] at refused
    cases checked : submission.measurement.check with
    | error flaw =>
      rw [checked] at refused
      cases refused
      exact .inr ⟨flaw, rfl⟩
    | ok m =>
      rw [checked] at refused
      cases refused

/-- A body that is refused is too large or at fault itself. -/
theorem refused_of_measurementOf {body : Http.Body} {f : Failure}
    (h : measurementOf body = .error f) : f = .tooLarge .body ∨ ∃ fault, f = .invalid fault := by
  by_cases fits : body.chunks.flatten.length ≤ bodyLimit
  · right
    cases broken : body.broken with
    | some text =>
      rw [measurementOf_broken fits broken] at h
      cases h
      exact ⟨_, rfl⟩
    | none =>
      rcases measurementOf_arrived fits broken h with ⟨_, rfl⟩ | ⟨_, rfl⟩
      · exact ⟨_, rfl⟩
      · exact ⟨_, rfl⟩
  · rw [measurementOf_tooLarge (Nat.lt_of_not_le fits)] at h
    cases h
    exact .inl rfl

/-! ## What is answered -/

/-- The headers for cross-origin callers, where they are allowed. -/
def dress (cors : Bool) (a : Http.Answer) : Http.Answer :=
  if cors then a.withHeaders corsHeaders else a

@[simp] theorem dress_status (cors : Bool) (a : Http.Answer) :
    (dress cors a).status = a.status := by
  cases cors <;> rfl

@[simp] theorem dress_body (cors : Bool) (a : Http.Answer) : (dress cors a).body = a.body := by
  cases cors <;> rfl

theorem answer_eq (cors : Bool) (store : Store σ) (stamp : Stamp) (r : Http.Request) (s : σ) :
    answer cors store stamp r s =
      (dress cors (answerRoute store stamp r s (route cors r.method r.target)).1,
        (answerRoute store stamp r s (route cors r.method r.target)).2) := rfl

theorem route_recording (cors : Bool) (query : Option Bytes) :
    route cors .post ⟨path, query⟩ = .create := by
  simp [route]

theorem answer_recording (cors : Bool) (store : Store σ) (stamp : Stamp) (query : Option Bytes)
    (headers : List Http.Header) (body : Http.Body) (s : σ) :
    answer cors store stamp (recording query headers body) s =
      (dress cors (create store stamp body s).1, (create store stamp body s).2) := by
  rw [answer_eq, recording, route_recording]
  rfl

theorem create_refused {body : Http.Body} {f : Failure} (h : measurementOf body = .error f)
    (store : Store σ) (stamp : Stamp) (s : σ) : create store stamp body s = (f.answer, s) := by
  rw [create, h]

/-- What is recorded depends on the measurement in a body alone. -/
theorem create_congr {body other : Http.Body} (h : measurementOf other = measurementOf body)
    (store : Store σ) (stamp : Stamp) (s : σ) :
    create store stamp other s = create store stamp body s := by
  rw [create, h, create]

theorem fails_recording {body : Http.Body} {f : Failure} (h : measurementOf body = .error f)
    (cors : Bool) (store : Store σ) (stamp : Stamp) (query : Option Bytes)
    (headers : List Http.Header) (s : σ) :
    Fails (answer cors store stamp (recording query headers body) s).1 f.status f.code ∧
      (answer cors store stamp (recording query headers body) s).2 = s := by
  rw [answer_recording, create_refused h]
  unfold Fails
  rw [dress_status, dress_body]
  exact ⟨fails_answer f, rfl⟩

theorem blames_answer {f : Failure} (h : BlamesArrival f.answer) :
    f.code = "PAYLOAD_TOO_LARGE" ∨
      f.code = "INVALID_REQUEST" ∧
        ∃ text, f.message = (Failure.invalid (.brokenBody text)).message := by
  rcases h with same | ⟨text, same⟩
  · exact .inl (failure_text_inj same).1
  · obtain ⟨code, message⟩ := failure_text_inj same
    exact .inr ⟨code, text, message⟩

/-- Whatever becomes of a body that has arrived, its arrival is not blamed. -/
theorem arrival_not_blamed {body : Http.Body} (fits : body.chunks.flatten.length ≤ bodyLimit)
    (unbroken : body.broken = none) (store : Store σ) (stamp : Stamp) (s : σ) :
    (create store stamp body s).1.status ≠ .payloadTooLarge ∧
      ¬ BlamesArrival (create store stamp body s).1 := by
  unfold create
  split
  · rename_i f refused
    have cause := measurementOf_arrived fits unbroken refused
    obtain ⟨fault, rfl⟩ : ∃ fault, f = .invalid fault := by
      rcases cause with ⟨_, rfl⟩ | ⟨_, rfl⟩ <;> exact ⟨_, rfl⟩
    refine ⟨nofun, fun blames => ?_⟩
    rcases blames_answer blames with code | ⟨-, text, message⟩
    · simp [Failure.code] at code
    · exact message_ne_broken (by simpa using cause) text message
  · split
    · refine ⟨nofun, fun blames => ?_⟩
      rcases blames_answer blames with code | ⟨code, -⟩ <;> simp [Failure.code] at code
    · rename_i r _ _
      refine ⟨nofun, ?_⟩
      rintro (same | ⟨text, same⟩)
      · exact record_text_ne r _ same
      · exact record_text_ne r _ same

/-- A body of which more than the limit arrives is refused as too large, and one that breaks off
before that is refused as invalid; neither is stored, whatever its bytes are. Any other body is
answered and stored like its bytes in one chunk, whatever the query and the headers say, and is not
blamed for the way it arrived. -/
theorem recording_by_bytes (cors : Bool) (store : Store σ) (stamp : Stamp) (query : Option Bytes)
    (headers : List Http.Header) (body : Http.Body) (s : σ) :
    let respond (r : Http.Request) := answer cors store stamp r s
    let answered := respond (recording query headers body)
    ((∃ before, before <+: body.chunks ∧ 2097152 < before.flatten.length) →
      Fails answered.1 .payloadTooLarge "PAYLOAD_TOO_LARGE" ∧ answered.2 = s) ∧
    ((∀ before, before <+: body.chunks → before.flatten.length ≤ 2097152) →
      (∀ text, body.broken = some text →
        Fails answered.1 .badRequest "INVALID_REQUEST" ∧ answered.2 = s) ∧
      (body.broken = none →
        answered = respond (recording none [] (.ofBytes body.chunks.flatten)) ∧
        answered.1.status ≠ .payloadTooLarge ∧ ¬ BlamesArrival answered.1)) := by
  intro respond answered
  constructor
  · intro exceeds
    exact fails_recording (measurementOf_tooLarge (Http.Body.exists_prefix_iff.mp exceeds)) ..
  · intro within
    have fits : body.chunks.flatten.length ≤ bodyLimit := within _ (List.prefix_refl _)
    constructor
    · intro text broken
      exact fails_recording (measurementOf_broken fits broken) ..
    · intro unbroken
      have same : measurementOf (.ofBytes body.chunks.flatten) = measurementOf body :=
        measurementOf_congr unbroken rfl (by simp [Http.Body.ofBytes])
      obtain ⟨status, blames⟩ := arrival_not_blamed fits unbroken store stamp s
      refine ⟨?_, ?_, ?_⟩
      · simp only [answered, respond, answer_recording, create_congr same]
      · simp only [answered, respond, answer_recording, dress_status]
        exact status
      · simp only [answered, respond, answer_recording, BlamesArrival, dress_body]
        exact blames

end Api

end MetricLedger
