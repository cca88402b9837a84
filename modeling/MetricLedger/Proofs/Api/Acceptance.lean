import MetricLedger.Proofs.Api.Recall
import MetricLedger.Proofs.Json.Acceptance

/-!
# The bodies that are submissions

A body is a submission in one of two forms: an object that names the three fields, or a list of
their values in turn. It is one as a whole: cut short or followed by anything but white space it is
refused.
-/

namespace MetricLedger

open Json

namespace Submission

theorem recognized : ∀ c ∈ shape.columns, Recognizes c.scalar.read := by
  intro c mem
  simp only [shape, List.mem_cons, List.not_mem_nil, or_false] at mem
  rcases mem with rfl | rfl | rfl
  · exact recognizes_string
  · exact recognizes_string
  · exact recognizes_double

theorem ofJson_iff {text : Bytes} {s : Submission} :
    ofJson text = .ok s ↔ ∃ x, Document x text ∧ shape.of meanings x = .ok s :=
  whole_shape_eq_ok_iff meanings rfl recognized

/-- The values of a submission, without names. -/
def values (s : Submission) (value : Tree) : List Tree := [.text s.name, .text s.type, value]

theorem of_list_eq_ok_iff {items : List Tree} {s : Submission} :
    shape.of meanings (.list items) = .ok s ↔
      ∃ v, items = s.values v ∧ Meaning.of v = .ok s.value := by
  constructor
  · intro made
    obtain ⟨⟨name, type, value, ⟨⟩⟩, arranged, rfl⟩ := ok_of_map made
    obtain ⟨_, _, rfl, named, _, _, rfl, typed, v, _, rfl, meant, rfl⟩ :=
      arrange_eq_ok_iff.mp arranged
    obtain rfl := Tree.asText_eq_ok_iff.mp named
    obtain rfl := Tree.asText_eq_ok_iff.mp typed
    exact ⟨v, rfl, meant⟩
  · rintro ⟨v, rfl, meant⟩
    have tells : Tells shape.columns meanings (s.values v) (s.name, s.type, s.value, ()) :=
      ⟨_, _, rfl, rfl, _, _, rfl, rfl, _, _, rfl, meant, rfl⟩
    exact congrArg (Except.map shape.build) (arrange_eq_ok_iff.mpr tells)

theorem ofJson_list_eq_ok_iff {items : List Tree} {text : Bytes} (h : Document (.list items) text)
    {s : Submission} : ofJson text = .ok s ↔ ∃ literal,
      items = s.values (.number literal) ∧ whole Scalar.read literal = .ok s.value := by
  rw [ofJson, ← verdict_eq_ok_iff, verdict_document meanings h, of_list_eq_ok_iff]
  refine exists_number_iff fun v same => ?_
  have mem : v ∈ items := same ▸ (by simp [values])
  exact h.items _ mem

end Submission

namespace Api

theorem submissionOf_eq_ok_iff {text : Bytes} {s : Submission} :
    submissionOf text = .ok s ↔ Submission.ofJson text = .ok s := mapError_eq_ok_iff

/-- A body is a submission if and only if it is an object whose members are the three fields, in any
order and none of them twice, or a list of a name, a type and a value; the value is a number that is
within range. -/
theorem submission_forms {text : Bytes} {s : Submission} :
    submissionOf text = .ok s ↔ ∃ literal, whole Scalar.read literal = .ok s.value ∧
      ((∃ ms, ms.Perm [("metric_name", .text s.name), ("metric_type", .text s.type),
          ("value", .number literal)] ∧ Document (.object ms) text) ∨
        Document (.list [.text s.name, .text s.type, .number literal]) text) := by
  refine submissionOf_eq_ok_iff.trans ⟨?_, ?_⟩
  · intro accepted
    obtain ⟨x, document, made⟩ := Submission.ofJson_iff.mp accepted
    cases x with
    | object ms =>
      obtain ⟨literal, perm, number⟩ := (Submission.ofJson_eq_ok_iff document).mp accepted
      exact ⟨literal, number, .inl ⟨ms, perm, document⟩⟩
    | list items =>
      obtain ⟨literal, rfl, number⟩ := (Submission.ofJson_list_eq_ok_iff document).mp accepted
      exact ⟨literal, number, .inr document⟩
    | _ => cases made
  · rintro ⟨literal, number, ⟨ms, perm, document⟩ | document⟩
    · exact (Submission.ofJson_eq_ok_iff document).mpr ⟨literal, perm, number⟩
    · exact (Submission.ofJson_list_eq_ok_iff document).mpr ⟨literal, rfl, number⟩

/-- A list on one line. -/
def listText (name type : String) (literal : Bytes) : Bytes :=
  ascii '[' :: (Text.Utf8.encode (quote name) ++ ascii ',' ::
    (Text.Utf8.encode (quote type) ++ ascii ',' :: (literal ++ [ascii ']'])))

theorem document_listText (name type : String) {literal : Bytes} (h : Literal literal) :
    Document (.list [.text name, .text type, .number literal]) (listText name type literal) :=
  ⟨.none, .list (.some .none (written_text name _) (.next .none .none (written_text type _)
    (.next .none .none (.number h) (.close .none)))), .none⟩

theorem not_object_of_bracket (ms : List (String × Tree)) (s : Bytes) :
    ¬ Document (.object ms) (ascii '[' :: s) := by
  rintro ⟨before, written, -⟩
  obtain ⟨_, _, rfl, rfl⟩ := written.cons
  have front := before.skipSpace_cons (by decide)
  rw [skipSpace_cons (by decide)] at front
  exact absurd (List.cons.inj front).1 (by decide)

/-- A list of a name, a type and a value is recorded, although it names none of the fields. -/
theorem list_is_recorded : ∃ text, text = Bytes.ofString "[\"cpu_usage\",\"gauge\",45.5]" ∧
    (∀ ms, ¬ Document (.object ms) text) ∧
    submissionOf text = .ok ⟨"cpu_usage", "gauge", ⟨0x4046C00000000000⟩⟩ ∧
    let posted := answer true Store.inMemory ⟨⟨1⟩, ⟨0, 0, by decide⟩⟩
      (recording none [] (.ofBytes text)) .empty
    posted.1.status = .created ∧ posted.2.records.map Record.name = ["cpu_usage"] := by
  have literal : Literal (Bytes.ofString "45.5") := @Literal.positive [ascii '4', ascii '5']
    [ascii '.', ascii '5'] [] (.digits (by decide) (.of_all (by decide) (by decide)))
    (.some (.of_all (by decide) (by decide))) .none
  have number : whole Scalar.read (Bytes.ofString "45.5") =
    .ok (⟨0x4046C00000000000⟩ : Double) := by decide +kernel
  have document := document_listText "cpu_usage" "gauge" literal
  have accepted := submissionOf_eq_ok_iff.mpr ((Submission.ofJson_list_eq_ok_iff document
    (s := ⟨"cpu_usage", "gauge", ⟨0x4046C00000000000⟩⟩)).mpr ⟨_, rfl, number⟩)
  have asked : measurementOf (.ofBytes (listText "cpu_usage" "gauge" (Bytes.ofString "45.5"))) =
      .ok ⟨"cpu_usage", "gauge", ⟨0x4046C00000000000⟩⟩ :=
    measurementOf_submission rfl (by simp [Http.Body.ofBytes]) (by decide) accepted
  obtain ⟨status, -, kept⟩ :=
    answer_recorded asked true ⟨⟨1⟩, ⟨0, 0, by decide⟩⟩ none [] .empty
  refine ⟨listText "cpu_usage" "gauge" (Bytes.ofString "45.5"), ?_,
    fun ms => not_object_of_bracket ms _, accepted, status, ?_⟩
  · decide +kernel
  · exact congrArg (fun l : Ledger => l.records.map Record.name) kept

/-! ## Where a submission ends -/

theorem submissionOf_cases (text : Bytes) : (∃ s, submissionOf text = .ok s) ∨
    ∃ located, submissionOf text = .error (.invalid (.malformed located)) := by
  unfold submissionOf
  cases Submission.ofJson text with
  | error located => exact .inr ⟨located, rfl⟩
  | ok s => exact .inl ⟨s, rfl⟩

section
variable {p s : Bytes} {a b : Submission}

theorem submissionOf_append (h : submissionOf p = .ok a) :
    submissionOf (p ++ s) = .ok b ↔ b = a ∧ ∀ x ∈ s, isSpace x = true := by
  rw [submissionOf_eq_ok_iff] at h ⊢
  exact whole_shape_append Submission.meanings rfl Submission.recognized h

theorem submissionOf_trim (h : submissionOf (p ++ s) = .ok a) (space : ∀ x ∈ s, isSpace x = true) :
    submissionOf p = .ok a := by
  rw [submissionOf_eq_ok_iff] at h ⊢
  exact whole_shape_trim Submission.meanings rfl Submission.recognized h space

/-- Of two texts one of which goes on where the other ends, one is refused if they differ in more
than white space. -/
theorem not_both_accepted (solid : ∃ x ∈ s, isSpace x = false) (h : submissionOf p = .ok a) :
    submissionOf (p ++ s) ≠ .ok b := by
  intro longer
  obtain ⟨x, mem, mark⟩ := solid
  have space := ((submissionOf_append h).mp longer).2 x mem
  rw [mark] at space
  cases space

end

/-- A body that is a submission is one as a whole. Cut short by more than white space at its end, or
followed by more than white space, it is refused as malformed; white space may be left out there or
added, and the submission stays the same. -/
theorem submission_is_whole {text : Bytes} {q : Submission} (accepted : submissionOf text = .ok q) :
    (∀ p s, text = p ++ s →
      ((∃ x ∈ s, isSpace x = false) →
        ∃ located, submissionOf p = .error (.invalid (.malformed located))) ∧
      ((∀ x ∈ s, isSpace x = true) → submissionOf p = .ok q)) ∧
    ∀ s, ((∃ x ∈ s, isSpace x = false) →
        ∃ located, submissionOf (text ++ s) = .error (.invalid (.malformed located))) ∧
      ((∀ x ∈ s, isSpace x = true) → submissionOf (text ++ s) = .ok q) := by
  constructor
  · rintro p s rfl
    refine ⟨fun solid => ?_, submissionOf_trim accepted⟩
    refine (submissionOf_cases p).resolve_left ?_
    rintro ⟨other, shorter⟩
    exact not_both_accepted solid shorter accepted
  · intro s
    refine ⟨fun solid => ?_, fun space => (submissionOf_append accepted).mpr ⟨rfl, space⟩⟩
    refine (submissionOf_cases (text ++ s)).resolve_left ?_
    rintro ⟨other, longer⟩
    exact not_both_accepted solid accepted longer

/-- An object without its last brace is refused, and so is one with a brace too many. -/
theorem braced_object_is_whole : ∃ text,
    submissionOf (text ++ [ascii '\x7d']) = .ok ⟨"a", "b", Double.ofNat 2⟩ ∧
    (∃ located, submissionOf text = .error (.invalid (.malformed located))) ∧
    ∃ located, submissionOf (text ++ [ascii '\x7d'] ++ [ascii '\x7d']) =
      .error (.invalid (.malformed located)) := by
  have two : Literal [ascii '2'] := @Literal.positive [ascii '2'] [] []
    (.digits (by decide) (.of_all (by decide) (by decide))) .none .none
  have number : whole Scalar.read [ascii '2'] = .ok (Double.ofNat 2) := rfl
  have accepted := submissionOf_eq_ok_iff.mpr
    ((Submission.ofJson_eq_ok_iff (document_objectText "a" "b" two)
      (s := ⟨"a", "b", Double.ofNat 2⟩)).mpr ⟨_, .refl _, number⟩)
  have brace : objectText "a" "b" [ascii '2'] =
      (objectText "a" "b" [ascii '2']).dropLast ++ [ascii '\x7d'] := by decide +kernel
  rw [brace] at accepted
  have solid : ∃ x ∈ [ascii '\x7d'], isSpace x = false := by decide
  obtain ⟨shorter, longer⟩ := submission_is_whole accepted
  exact ⟨_, accepted, (shorter _ _ rfl).1 solid, (longer _).1 solid⟩

end Api

end MetricLedger
