import MetricLedger.Proofs.Api.Buffering
import MetricLedger.Proofs.Api.Listing

/-!
# Requests and a store that is out of order

A handler either answers without the store, and then no store makes a difference, or it passes on
what the store reports. So a store that fails is told of only where a sound one would have served,
and a request that is refused is refused by every store alike.
-/

namespace MetricLedger.Api

/-- The routes whose answers may come from the store. -/
def Route.Handled : Route → Prop
  | .list | .listHead | .create => True
  | .preflight _ | .unknown | .notAllowed => False

def Succeeds (a : Http.Answer) : Prop := a.status = .ok ∨ a.status = .created

/-- Answers a request with whatever store there is. -/
abbrev Responder := (σ : Type) → Store σ → σ → Http.Answer × σ

/-- A responder either refuses without asking the store, or succeeds with a sound store and answers
with `told` where the store fails. -/
inductive Conduct (told : StoreFault → Http.Answer) (respond : Responder) : Prop
  | alone (a : Http.Answer) (refusal : a.status = .badRequest ∨ a.status = .payloadTooLarge)
      (same : ∀ (σ : Type) (store : Store σ) (s : σ), respond σ store s = (a, s))
  | asks (served : ∀ l, Succeeds (respond Ledger Store.inMemory l).1)
      (lost : ∀ (σ : Type) (fault : StoreFault) (s : σ),
        respond σ (Store.failing fault) s = (told fault, s))

theorem Conduct.map {told : StoreFault → Http.Answer} {respond : Responder}
    (h : Conduct told respond) (f : Http.Answer → Http.Answer)
    (keeps : ∀ a, (f a).status = a.status) :
    Conduct (fun fault => f (told fault))
      (fun σ store s => (f (respond σ store s).1, (respond σ store s).2)) := by
  cases h with
  | alone a refusal same =>
    refine .alone (f a) ?_ fun σ store s => by rw [same]
    rwa [keeps]
  | asks served lost =>
    refine .asks (fun l => ?_) fun σ fault s => by rw [lost]
    unfold Succeeds
    rw [keeps]
    exact served l

/-! ## The handlers -/

theorem refusal_of_measurementOf {body : Http.Body} {f : Failure}
    (h : measurementOf body = .error f) :
    f.answer.status = .badRequest ∨ f.answer.status = .payloadTooLarge := by
  rcases refused_of_measurementOf h with rfl | ⟨fault, rfl⟩
  · exact .inr rfl
  · exact .inl rfl

theorem conduct_create (stamp : Stamp) (body : Http.Body) :
    Conduct (fun fault => (Failure.persistence fault).answer)
      (fun _ store s => create store stamp body s) := by
  cases read : measurementOf body with
  | error f =>
    refine .alone f.answer (refusal_of_measurementOf read) fun σ store s => ?_
    rw [create, read]
  | ok m =>
    refine .asks (fun l => .inr ?_) fun σ fault s => ?_
    · rw [create, read]
      rfl
    · rw [create, read]
      rfl

theorem conduct_list (query : Bytes) :
    Conduct (fun fault => (Failure.persistence fault).answer)
      (fun _ store s => list store query s) := by
  cases chosen : selection query with
  | error f =>
    obtain ⟨fault, rfl⟩ := invalid_of_selection chosen
    refine .alone (Failure.invalid fault).answer (.inl rfl) fun σ store s => ?_
    rw [list, chosen]
  | ok name =>
    refine .asks (fun l => .inl ?_) fun σ fault s => ?_
    · rw [list, chosen]
      cases name <;> rfl
    · rw [list, chosen]
      cases name <;> rfl

/-! ## Whole requests -/

/-- Only `HEAD` requests are answered like others but for the body. -/
theorem method_of_route {cors : Bool} {r : Http.Request} :
    (route cors r.method r.target = .listHead → r.method = .head) ∧
    ((route cors r.method r.target = .list ∨ route cors r.method r.target = .create) →
      r.method ≠ .head) := by
  unfold route
  cases r.method <;> grind

/-- What is answered where the store fails. -/
def outageAnswer (cors : Bool) (method : Http.Method) (fault : StoreFault) : Http.Answer :=
  dress cors (if method = .head then (Failure.persistence fault).answer.withoutBody
    else (Failure.persistence fault).answer)

theorem conduct_answer (cors : Bool) (stamp : Stamp) {r : Http.Request}
    (h : (route cors r.method r.target).Handled) :
    Conduct (outageAnswer cors r.method) (fun _ store s => answer cors store stamp r s) := by
  have method := @method_of_route cors r
  simp only [answer_eq]
  unfold outageAnswer
  cases way : route cors r.method r.target with
  | preflight known => rw [way] at h; cases h
  | unknown => rw [way] at h; cases h
  | notAllowed => rw [way] at h; cases h
  | list =>
    simp only [if_neg (method.2 (.inl way))]
    exact (conduct_list (r.target.query.getD [])).map (dress cors) (dress_status cors)
  | listHead =>
    simp only [if_pos (method.1 way)]
    exact ((conduct_list (r.target.query.getD [])).map Http.Answer.withoutBody fun _ => rfl).map
      (dress cors) (dress_status cors)
  | create =>
    simp only [if_neg (method.2 (.inr way))]
    exact (conduct_create stamp r.body).map (dress cors) (dress_status cors)

/-- What no handler answers is answered without the store, and is no failure of the service. -/
theorem answer_unhandled (cors : Bool) (stamp : Stamp) {r : Http.Request}
    (h : ¬ (route cors r.method r.target).Handled) :
    ∃ a, a.status ≠ .internalError ∧
      ∀ (σ : Type) (store : Store σ) (s : σ), answer cors store stamp r s = (a, s) := by
  simp only [answer_eq]
  cases way : route cors r.method r.target with
  | preflight known =>
    refine ⟨dress cors (.empty .ok (preflightHeaders ++ if known then [allow] else [])), ?_,
      fun σ store s => rfl⟩
    simp [Http.Answer.empty]
  | unknown =>
    refine ⟨dress cors (.empty .notFound []), ?_, fun σ store s => rfl⟩
    simp [Http.Answer.empty]
  | notAllowed =>
    refine ⟨dress cors (.empty .methodNotAllowed [allow]), ?_, fun σ store s => rfl⟩
    simp [Http.Answer.empty]
  | list => rw [way] at h; exact absurd trivial h
  | listHead => rw [way] at h; exact absurd trivial h
  | create => rw [way] at h; exact absurd trivial h

/-- Where a request is not served from the store, it is answered alike by every store, one that
fails included, and leaves it as it was; so it is never told of as a failure of the service. Where
a handler serves a request from the ledger, a store that fails has the failure told instead. -/
theorem outage_isolated (cors : Bool) (stamp : Stamp) (r : Http.Request) (l : Ledger)
    (fault : StoreFault) (s : σ) :
    let kept := answer cors Store.inMemory stamp r l
    let lost := answer cors (Store.failing fault) stamp r s
    let served := (route cors r.method r.target).Handled ∧ Succeeds kept.1
    (¬ served → lost = (kept.1, s) ∧ kept.2 = l ∧ kept.1.status ≠ .internalError ∧
      ∀ (τ : Type) (store : Store τ) (t : τ), answer cors store stamp r t = (kept.1, t)) ∧
    (served → lost.2 = s ∧ lost.1.status = .internalError ∧ lost.1.body =
      if r.method = .head then "" else (Json.Value.object [("error", .text "PERSISTENCE"),
        ("message", .text ("Persistence error: " ++ fault.message))]).compact) := by
  intro kept lost served
  have alike {a : Http.Answer} (status : a.status ≠ .internalError)
      (same : ∀ (σ : Type) (store : Store σ) (s : σ), answer cors store stamp r s = (a, s)) :
      lost = (kept.1, s) ∧ kept.2 = l ∧ kept.1.status ≠ .internalError ∧
        ∀ (τ : Type) (store : Store τ) (t : τ), answer cors store stamp r t = (kept.1, t) := by
    simp only [kept, lost, same]
    exact ⟨trivial, trivial, status, fun _ _ _ => trivial⟩
  by_cases handled : (route cors r.method r.target).Handled
  · cases conduct_answer cors stamp handled with
    | alone a refusal same =>
      have fails : ¬ Succeeds kept.1 := by
        simp only [kept, same, Succeeds]
        rcases refusal with status | status <;> simp [status]
      refine ⟨fun _ => alike ?_ same, fun h => absurd h.2 fails⟩
      rcases refusal with status | status <;> simp [status]
    | asks succeeds told =>
      refine ⟨fun h => absurd ⟨handled, succeeds l⟩ h, fun _ => ?_⟩
      simp only [lost, told, outageAnswer, dress_status, dress_body]
      refine ⟨trivial, ?_, ?_⟩
      · split <;> rfl
      · split <;> rfl
  · obtain ⟨a, status, same⟩ := answer_unhandled cors stamp handled
    exact ⟨fun _ => alike status same, fun h => absurd h.1 handled⟩

end MetricLedger.Api
