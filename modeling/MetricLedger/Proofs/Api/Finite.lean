import MetricLedger.Proofs.Api.Acceptance
import MetricLedger.Proofs.Api.Outage
import MetricLedger.Proofs.Json.Refusal

/-!
# Submitted values are finite

A submission holds a finite value, however its number is written, so the check of a measurement that
came over HTTP can fail for a blank text only. The refusal of values that are not finite is there
for other callers: no request is ever answered with it.
-/

namespace MetricLedger

open Json

/-- What a number that is not finite would be refused with. -/
def Failure.notFinite : Failure := .invalid (.flaw .notFinite)

theorem Submission.isFinite_value {body : Bytes} {s : Submission}
    (h : Api.submissionOf body = .ok s) : s.value.isFinite := by
  obtain ⟨literal, number, -⟩ := Api.submission_forms.mp h
  exact isFinite_of_whole number

/-- Of a measurement with a finite value only the texts are checked. -/
theorem Measurement.check_of_isFinite {m : Measurement} (h : m.value.isFinite) :
    m.check = if Text.isBlank m.name then .error .blankName
      else if Text.isBlank m.type then .error .blankType else .ok m := by
  rw [check, if_pos h]

namespace Api

/-! ## Refusals -/

/-- The texts of refusals are told apart by their first character. -/
theorem message_ne_notFinite {fault : RequestFault} {c : Char}
    (first : fault.message.toList.head? = some c) (other : c ≠ 'v') :
    (Failure.invalid fault).message ≠ Failure.notFinite.message := by
  intro same
  have words : fault.message = (RequestFault.flaw .notFinite).message :=
    (String.append_right_inj "Invalid request: ").mp same
  have value : (RequestFault.flaw .notFinite).message.toList.head? = some 'v' := by decide
  rw [words, value] at first
  exact other (Option.some.inj first).symm

theorem malformed_of_submissionOf {text : Bytes} {f : Failure} (h : submissionOf text = .error f) :
    ∃ located, f = .invalid (.malformed located) := by
  rcases submissionOf_cases text with ⟨s, read⟩ | ⟨located, refused⟩
  · cases h.symm.trans read
  · exact ⟨located, Except.error.inj (h.symm.trans refused)⟩

theorem measurementOf_message {body : Http.Body} {f : Failure} (h : measurementOf body = .error f) :
    f.message ≠ Failure.notFinite.message := by
  unfold measurementOf at h
  split at h
  · cases h
    decide
  · rename_i text _
    cases h
    exact message_ne_notFinite (c := 'F')
      (head_append (a := "Failed to buffer the request body: ") (by decide) text) (by decide)
  · split at h
    · rename_i refused
      cases h
      obtain ⟨located, rfl⟩ := malformed_of_submissionOf refused
      exact message_ne_notFinite (c := 'm')
        (head_append (a := "malformed metric payload: ") (by decide) located.message) (by decide)
    · rename_i submission read
      have finite : submission.measurement.value.isFinite := Submission.isFinite_value read
      rw [Measurement.check_of_isFinite finite] at h
      split at h
      · cases h
        exact message_ne_notFinite (c := 'm') (by decide) (by decide)
      · split at h
        · cases h
          exact message_ne_notFinite (c := 'm') (by decide) (by decide)
        · cases h

theorem selection_message {query : Bytes} {f : Failure} (h : selection query = .error f) :
    f.message ≠ Failure.notFinite.message := by
  unfold selection at h
  split at h
  · cases h
  · split at h
    · cases h
      exact message_ne_notFinite (c := 'm') (by decide) (by decide)
    · cases h
  · cases h
    exact message_ne_notFinite (c := 'F') (by decide) (by decide)

/-! ## Answers -/

/-- An answer whose body is not the refusal of a value that is not finite. -/
def Spares (a : Http.Answer) : Prop := a.body ≠ Failure.notFinite.toJson.compact

theorem spares_of_message {f : Failure} (h : f.message ≠ Failure.notFinite.message) :
    Spares f.answer :=
  fun same => h (failure_text_inj same).2

theorem spares_of_head {a : Http.Answer} (h : a.body.toList.head? ≠ some '\x7b') : Spares a := by
  intro same
  rw [same] at h
  exact h rfl

theorem spares_of_empty {a : Http.Answer} (h : a.body = "") : Spares a :=
  spares_of_head (by rw [h]; decide)

theorem spares_persistence (fault : StoreFault) : Spares (Failure.persistence fault).answer := by
  intro same
  have code : "PERSISTENCE" = "INVALID_REQUEST" := (failure_text_inj same).1
  exact absurd code (by decide)

theorem spares_create (store : Store σ) (stamp : Stamp) (body : Http.Body) (s : σ) :
    Spares (create store stamp body s).1 := by
  unfold create
  split
  · exact spares_of_message (measurementOf_message ‹_›)
  · split
    · exact spares_persistence _
    · exact record_text_ne _ _

theorem spares_list (store : Store σ) (query : Bytes) (s : σ) :
    Spares (list store query s).1 := by
  unfold list
  split
  · exact spares_of_message (selection_message ‹_›)
  · split
    · exact spares_persistence _
    · rename_i rs s _
      apply spares_of_head
      cases rs <;> simp [Http.Answer.json, Record.listJson, Value.compact, Value.chars]

theorem spares_answer (cors : Bool) (store : Store σ) (stamp : Stamp) (r : Http.Request) (s : σ) :
    Spares (answer cors store stamp r s).1 := by
  rw [Spares, answer_body]
  cases route cors r.method r.target with
  | preflight known => exact spares_of_empty rfl
  | unknown => exact spares_of_empty rfl
  | list => exact spares_list store _ s
  | listHead => exact spares_of_empty rfl
  | create => exact spares_create store stamp _ s
  | notAllowed => exact spares_of_empty rfl

/-- A number of any length is read as a finite double or refused as too large. So the value of a
submission is finite, its measurement is valid unless its name or its type is blank, and no answer
to any request tells of a value that is not finite, whatever the store does. -/
theorem submitted_values_finite :
    (∀ literal, Literal literal →
      (∃ x : Double, whole Scalar.read literal = .ok x ∧ x.isFinite) ∨
        ∃ located, whole (Scalar.read (α := Double)) literal = .error located ∧
          located.cause = .numberTooLarge) ∧
    (∀ body s, submissionOf body = .ok s → s.value.isFinite ∧
      s.measurement.check = if Text.isBlank s.name then .error .blankName
        else if Text.isBlank s.type then .error .blankType else .ok s.measurement) ∧
    ∀ {σ : Type} (cors : Bool) (store : Store σ) (stamp : Stamp) (r : Http.Request) (s : σ),
      (answer cors store stamp r s).1.body ≠
        (Failure.invalid (.flaw .notFinite)).toJson.compact := by
  refine ⟨fun _ => whole_literal, ?_, spares_answer⟩
  intro body s read
  have finite := Submission.isFinite_value read
  exact ⟨finite, Measurement.check_of_isFinite finite⟩

/-- The digits do not fit 64 bits and the exponent is just within range, and still only the type is
at fault. -/
theorem large_value_is_finite : ∃ body s, body = Bytes.ofString
      "\x7b\"value\":123456789012345678901e288,\"metric_name\":\"a\",\"metric_type\":\" \"\x7d" ∧
    submissionOf body = .ok s ∧ s.value.isFinite ∧ s.measurement.check = .error .blankType := by
  obtain ⟨-, submitted, -⟩ := submitted_values_finite
  have read : submissionOf (Bytes.ofString
      "\x7b\"value\":123456789012345678901e288,\"metric_name\":\"a\",\"metric_type\":\" \"\x7d") =
      .ok ⟨"a", " ", ⟨9216046942731835485⟩⟩ :=
    eq_ok_of_toOption (by decide +kernel)
  obtain ⟨finite, checked⟩ := submitted _ _ read
  exact ⟨_, _, rfl, read, finite, checked.trans (by decide)⟩

end Api

end MetricLedger
