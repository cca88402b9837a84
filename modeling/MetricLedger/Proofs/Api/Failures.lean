import MetricLedger.Proofs.Api.Outage
import MetricLedger.Proofs.Json.Unambiguity

/-!
# How failures are told

A failure is told as a JSON object of its code and its message. The message may quote what a client
or a server has sent, and whatever that is, the body of the answer is a form of this object and of
no other value.
-/

namespace MetricLedger.Api

open Json (Tree Document)

/-- The body of an answer is a text of an object with the two members, and of nothing else. -/
def Explains (a : Http.Answer) (code message : String) : Prop :=
  ∀ x, Document x (Bytes.ofString a.body) ↔
    x = .object [("error", .text code), ("message", .text message)]

theorem explains_answer (f : Failure) : Explains f.answer f.code f.message := by
  have document : Document _ (Bytes.ofString f.answer.body) := f.toJson.document_compact
  exact fun x => document.iff_eq

/-- The statuses that report a failure, each with its code. -/
def told : List (Nat × String) :=
  [(400, "INVALID_REQUEST"), (413, "PAYLOAD_TOO_LARGE"), (500, "PERSISTENCE")]

/-- An answer either reports success or is that of a failure which clients are told of. -/
inductive Told (a : Http.Answer) : Prop
  | succeeds (success : Succeeds a)
  | fails (f : Failure) (status : a.status = f.status) (body : Explains a f.code f.message)
      (known : (f.status.code, f.code) ∈ told)

theorem told_invalid (fault : RequestFault) : Told (Failure.invalid fault).answer :=
  .fails _ rfl (explains_answer _) (by simp [told, Failure.status, Failure.code, Http.Status.code])

theorem told_tooLarge (excess : Excess) : Told (Failure.tooLarge excess).answer :=
  .fails _ rfl (explains_answer _) (by simp [told, Failure.status, Failure.code, Http.Status.code])

theorem told_persistence (fault : StoreFault) : Told (Failure.persistence fault).answer :=
  .fails _ rfl (explains_answer _) (by simp [told, Failure.status, Failure.code, Http.Status.code])

theorem Told.dress {a : Http.Answer} (h : Told a) (cors : Bool) : Told (dress cors a) := by
  cases h with
  | succeeds success =>
    refine .succeeds ?_
    rwa [Succeeds, dress_status]
  | fails f status body known =>
    refine .fails f ?_ ?_ known
    · rwa [dress_status]
    · rwa [Explains, dress_body]

/-! ## The handlers -/

theorem told_create (store : Store σ) (stamp : Stamp) (body : Http.Body) (s : σ) :
    Told (create store stamp body s).1 := by
  unfold create
  split
  · rename_i f refused
    rcases refused_of_measurementOf refused with rfl | ⟨fault, rfl⟩
    · exact told_tooLarge _
    · exact told_invalid fault
  · split
    · exact told_persistence _
    · exact .succeeds (.inr rfl)

theorem told_list (store : Store σ) (query : Bytes) (s : σ) : Told (list store query s).1 := by
  unfold list
  split
  · rename_i f refused
    obtain ⟨fault, rfl⟩ := invalid_of_selection refused
    exact told_invalid fault
  · split
    · exact told_persistence _
    · exact .succeeds (.inl rfl)

/-- Whatever the store does, a request to list or to record is answered with success or told why
not. -/
theorem told_answer (cors : Bool) (store : Store σ) (stamp : Stamp) {r : Http.Request} (s : σ)
    (known : r.target.path = path) (asked : r.method = .get ∨ r.method = .post) :
    Told (answer cors store stamp r s).1 := by
  rw [answer_eq]
  apply Told.dress
  rcases asked with get | post
  · have listed : route cors r.method r.target = .list := by simp [route, known, get]
    rw [listed]
    exact told_list store _ s
  · have recorded : route cors r.method r.target = .create := by simp [route, known, post]
    rw [recorded]
    exact told_create store stamp _ s

/-- Every failure is answered with its status and a body that is a text of its code and its message
and of nothing else, whatever texts the message is made of. Where records are listed or recorded,
with any store, nothing but success and three kinds of failures is reported, and each failure in
this way. -/
theorem failures_explained :
    (∀ f : Failure, f.answer.status = f.status ∧ Explains f.answer f.code f.message) ∧
    ∀ {σ : Type} (cors : Bool) (store : Store σ) (stamp : Stamp) (r : Http.Request) (s : σ),
      r.target.path = path → r.method = .get ∨ r.method = .post →
      let a := (answer cors store stamp r s).1
      a.status.code ∈ [200, 201, 400, 413, 500] ∧
      (a.status.code ∈ [400, 413, 500] → ∃ f : Failure, Explains a f.code f.message ∧
        (a.status.code, f.code) ∈
          [(400, "INVALID_REQUEST"), (413, "PAYLOAD_TOO_LARGE"), (500, "PERSISTENCE")]) := by
  refine ⟨fun f => ⟨rfl, explains_answer f⟩, ?_⟩
  intro σ cors store stamp r s known asked a
  cases told_answer cors store stamp s known asked with
  | succeeds success =>
    rcases success with ok | created
    · simp [a, ok, Http.Status.code]
    · simp [a, created, Http.Status.code]
  | fails f status body pair =>
    rw [← status] at pair
    refine ⟨?_, fun _ => ⟨f, body, pair⟩⟩
    have among : a.status.code ∈ told.map Prod.fst := List.mem_map_of_mem pair
    exact List.mem_cons_of_mem _ (List.mem_cons_of_mem _ among)

/-- Quotes and braces in the text of a broken stream stay within the message. -/
theorem broken_off_explained : ∃ f : Failure, f.code = "INVALID_REQUEST" ∧ Explains
    (answer true (Store.failing .poolClosed) ⟨⟨1⟩, ⟨0, 0, by decide⟩⟩
      (recording none [] ⟨[], some "\"\x7d,\"error\":\"\\"⟩) ()).1 f.code f.message := by
  obtain ⟨-, all⟩ := failures_explained
  obtain ⟨-, explained⟩ := all true (Store.failing .poolClosed) ⟨⟨1⟩, ⟨0, 0, by decide⟩⟩
    (recording none [] ⟨[], some "\"\x7d,\"error\":\"\\"⟩) () rfl (.inr rfl)
  obtain ⟨f, body, pair⟩ := explained (by decide)
  change (400, f.code) ∈ told at pair
  exact ⟨f, by simpa [told] using pair, body⟩

end MetricLedger.Api
