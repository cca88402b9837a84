import MetricLedger.Proofs.Api.Buffering

/-!
# Answers without their bodies

A `HEAD` request is answered as a `GET` request for the same target would be, headers and all, and
only the body stays behind. Its length is told nevertheless, once, whatever becomes of the request.
-/

namespace MetricLedger

namespace Http.Answer

/-- The headers of an answer tell the length of a text, once. -/
def Tells (a : Http.Answer) (text : String) : Prop :=
  a.headers.filter (·.name == "content-length") = [contentLength text]

theorem tells_json (status : Status) (v : Json.Value) :
    (json status v).Tells (json status v).body := by
  simp [Tells, json, contentLength]

theorem tells_empty {headers : List Header} (h : ∀ x ∈ headers, x.name ≠ "content-length")
    (status : Status) : (empty status headers).Tells "" := by
  have others : headers.filter (·.name == "content-length") = [] := by simpa using h
  simp [Tells, empty, others, contentLength]

theorem Tells.withHeaders {a : Http.Answer} {text : String} (h : a.Tells text)
    {headers : List Header} (others : ∀ x ∈ headers, x.name ≠ "content-length") :
    (a.withHeaders headers).Tells text := by
  have none : headers.filter (·.name == "content-length") = [] := by simpa using others
  unfold Tells
  rw [Answer.withHeaders, List.filter_append, none, List.nil_append]
  exact h

/-- An answer is another one without its body, but with the length of it. -/
structure IsHeadOf (head whole : Http.Answer) : Prop where
  status : head.status = whole.status
  headers : head.headers = whole.headers
  length : head.Tells whole.body
  body : head.body = ""

end Http.Answer

/-- Reading leaves a store as it is. -/
def Store.ReadsOnly (store : Store σ) : Prop :=
  ∀ name s, (Api.find store name s).2 = s

theorem Store.inMemory_readsOnly : inMemory.ReadsOnly := by
  rintro (_ | name) l
  · rfl
  · rfl

theorem Store.failing_readsOnly (fault : StoreFault) : (failing (σ := σ) fault).ReadsOnly := by
  rintro (_ | name) s
  · rfl
  · rfl

namespace Api

open Http.Answer

/-- A `HEAD` request goes the way of a `GET` request, but for the body of a listing. -/
theorem route_head (cors : Bool) (target : Http.Target) :
    (route cors .get target = .list ∧ route cors .head target = .listHead) ∨
      (route cors .get target = .unknown ∧ route cors .head target = .unknown) := by
  by_cases known : target.path = path
  · exact .inl (by simp [route, known])
  · exact .inr (by simp [route, known])

section
variable (store : Store σ) (query : Bytes) (s : σ)

theorem tells_list : (list store query s).1.Tells (list store query s).1.body := by
  unfold list
  split
  · exact tells_json ..
  · split
    · exact tells_json ..
    · exact tells_json ..

theorem state_list (h : store.ReadsOnly) : (list store query s).2 = s := by
  unfold list
  split
  · rfl
  · rename_i name _
    have kept := h name s
    split
    · rename_i found
      rwa [found] at kept
    · rename_i found
      rwa [found] at kept

end

theorem tells_dress {a : Http.Answer} {text : String} (h : a.Tells text) (cors : Bool) :
    (dress cors a).Tells text := by
  cases cors
  · exact h
  · exact h.withHeaders (by decide)

theorem isHeadOf_dress {a : Http.Answer} (h : a.Tells a.body) (cors : Bool) :
    (dress cors a.withoutBody).IsHeadOf (dress cors a) := by
  have told : a.withoutBody.Tells a.body := h
  refine ⟨?_, ?_, ?_, ?_⟩
  · rw [dress_status, dress_status]
    rfl
  · cases cors <;> rfl
  · rw [dress_body]
    exact tells_dress told cors
  · rw [dress_body]
    rfl

section
variable (cors : Bool) (store : Store σ) (stamp : Stamp) (target : Http.Target)
  (headers : List Http.Header) (body : Http.Body) (s : σ)

theorem isHeadOf_answer :
    (answer cors store stamp ⟨.head, target, headers, body⟩ s).1.IsHeadOf
      (answer cors store stamp ⟨.get, target, headers, body⟩ s).1 := by
  rw [answer_eq, answer_eq]
  rcases route_head cors target with ⟨get, head⟩ | ⟨get, head⟩
  · simp only [get, head]
    exact isHeadOf_dress (tells_list ..) cors
  · have told : (empty .notFound []).Tells "" := tells_empty (by simp) .notFound
    simp only [get, head]
    exact isHeadOf_dress told cors

theorem state_answer_head :
    (answer cors store stamp ⟨.head, target, headers, body⟩ s).2 =
      (answer cors store stamp ⟨.get, target, headers, body⟩ s).2 := by
  rw [answer_eq, answer_eq]
  rcases route_head cors target with ⟨get, head⟩ | ⟨get, head⟩
  · simp only [get, head]
    rfl
  · simp only [get, head]
    rfl

theorem state_answer_get (h : store.ReadsOnly) :
    (answer cors store stamp ⟨.get, target, headers, body⟩ s).2 = s := by
  rw [answer_eq]
  rcases route_head cors target with ⟨get, -⟩ | ⟨get, -⟩
  · simp only [get]
    exact state_list store _ s h
  · simp only [get]
    rfl

end

/-- Whatever the target, and whatever store there is, a `HEAD` request is answered like a `GET`
request, with the same status and the same headers, among them the length of the body, which is
left out. It does to the store what the `GET` request does, and that is nothing where reading
changes nothing, as in the ledger and in a store that fails. -/
theorem head_like_get (cors : Bool) (target : Http.Target) (headers : List Http.Header)
    (body : Http.Body) (stamp : Stamp) :
    let respond {σ : Type} (store : Store σ) (method : Http.Method) (s : σ) :=
      answer cors store stamp ⟨method, target, headers, body⟩ s
    (∀ (σ : Type) (store : Store σ) (s : σ),
      (respond store .head s).1.IsHeadOf (respond store .get s).1 ∧
      (respond store .head s).2 = (respond store .get s).2) ∧
    (∀ l : Ledger, (respond Store.inMemory .head l).2 = l) ∧
    ∀ (σ : Type) (fault : StoreFault) (s : σ), (respond (Store.failing fault) .head s).2 = s := by
  intro respond
  refine ⟨fun σ store s => ⟨?_, ?_⟩, fun l => ?_, fun σ fault s => ?_⟩
  · exact isHeadOf_answer cors store stamp target headers body s
  · exact state_answer_head cors store stamp target headers body s
  · exact (state_answer_head ..).trans
      (state_answer_get cors _ stamp target headers body l Store.inMemory_readsOnly)
  · exact (state_answer_head ..).trans
      (state_answer_get cors _ stamp target headers body s (Store.failing_readsOnly fault))

end Api

end MetricLedger
