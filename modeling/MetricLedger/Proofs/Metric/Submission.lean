import MetricLedger.Api.Handlers
import MetricLedger.Proofs.Json.Fields
import MetricLedger.Proofs.Json.Printed

/-!
# Submissions and the objects they are read from

An object is a submission when it has the three fields and nothing else. Neither the order of its
members nor the form of its text plays a part in what is read.
-/

namespace MetricLedger

open Json

namespace Submission

def meanings : Meanings shape.columns :=
  (inferInstanceAs (Meaning String), inferInstanceAs (Meaning String),
    inferInstanceAs (Meaning Double), ())

/-- The members of a submission, its value as it is written. -/
def members (s : Submission) (value : Tree) : List (String × Tree) :=
  [("metric_name", .text s.name), ("metric_type", .text s.type), ("value", value)]

theorem gather_eq_ok_iff {ms : List (String × Tree)} {s : Submission} :
    shape.gather meanings ms = .ok s ↔
      ∃ v, ms.Perm (s.members v) ∧ Meaning.of v = .ok s.value := by
  rw [Json.gather_eq_ok_iff (.inl rfl) (by decide)]
  constructor
  · rintro ⟨⟨_ | name, _ | type, _ | value, ⟨⟩⟩, fields, fills, perm, concluded⟩
    all_goals try cases concluded
    obtain ⟨_, _, rfl, name, _, _, rfl, type, v, _, rfl, value, rfl⟩ := fills
    obtain rfl := Tree.asText_eq_ok_iff.mp name
    obtain rfl := Tree.asText_eq_ok_iff.mp type
    exact ⟨v, perm, value⟩
  · rintro ⟨v, perm, value⟩
    exact ⟨(some s.name, some s.type, some s.value, ()), _,
      ⟨_, _, rfl, rfl, _, _, rfl, rfl, _, _, rfl, value, rfl⟩, perm, rfl⟩

theorem ofJson_eq_ok_iff {ms : List (String × Tree)} {text : Bytes}
    (h : Document (.object ms) text) {s : Submission} :
    ofJson text = .ok s ↔ ∃ literal, ms.Perm (s.members (.number literal)) ∧
      whole Scalar.read literal = .ok s.value := by
  rw [ofJson, ← verdict_eq_ok_iff, verdict_object meanings h, gather_eq_ok_iff]
  refine exists_number_iff fun v perm => ?_
  have mem : ("value", v) ∈ ms := perm.mem_iff.mpr (by simp [members])
  exact h.written _ mem

end Submission

/-- A text that is an object is a submission when its members are the three fields, in any order,
with texts and a number that is within range; what is read are these texts and that number. Any
other object is refused. -/
theorem Api.submission_of_object {ms : List (String × Tree)} {text : Bytes}
    (h : Document (.object ms) text) :
    (∀ s, submissionOf text = .ok s ↔ ∃ literal,
      ms.Perm [("metric_name", .text s.name), ("metric_type", .text s.type),
        ("value", .number literal)] ∧ whole Scalar.read literal = .ok s.value) ∧
    ((∃ s, submissionOf text = .ok s) ∨
      ∃ located, submissionOf text = .error (.invalid (.malformed located))) := by
  constructor
  · intro s
    exact mapError_eq_ok_iff.trans (Submission.ofJson_eq_ok_iff h)
  · unfold submissionOf
    cases Submission.ofJson text with
    | error located => exact .inr ⟨located, rfl⟩
    | ok s => exact .inl ⟨s, rfl⟩

/-- Members out of order, white space and an escape for a plain character are all in order. -/
theorem Api.submission_of_shuffled : ∃ text, text = Bytes.ofString
      " \x7b\"value\": 2,\"metric_type\":\"host\",\n\"metric_name\":\"cp\\u0075\"\x7d" ∧
    Document (.object [("value", .number [ascii '2']), ("metric_type", .text "host"),
      ("metric_name", .text "cpu")]) text ∧
    submissionOf text = .ok ⟨"cpu", "host", .ofNat 2⟩ := by
  have two : Literal [ascii '2'] := @Literal.positive [ascii '2'] [] []
    (.digits (by decide) ⟨by decide, fun b mem => List.mem_singleton.mp mem ▸ rfl⟩) .none .none
  have blank : Blank [' '] := spaced_overLines.afterColon
  have cpu := Spelled.plain (c := 'c') (by decide) (by decide) (by decide)
    (.plain (c := 'p') (by decide) (by decide) (by decide)
      (.code (c := 'u') (quad_digits (by decide) _) (.done (t := [ascii '\x7d']))))
  have name := member_quote "metric_name" blank_nil (Written.text cpu)
  have type (t : Bytes) := member_quote "metric_type" blank_nil (written_text "host" t)
  have value (t : Bytes) := member_quote "value" blank (Written.number two (t := t))
  have document := Document.mk (.some (b := ascii ' ') rfl .none) (.object (.some .none (value _)
    (.next .none .none (type _) (.next .none (.some (b := ascii '\n') rfl .none) name
      (.close .none))))) .none
  have shuffled := List.reverse_perm
    (Submission.members ⟨"cpu", "host", .ofNat 2⟩ (.number [ascii '2']))
  refine ⟨_, ?_, document, ((submission_of_object document).1 _).mpr ⟨_, shuffled, rfl⟩⟩
  decide +kernel

end MetricLedger
