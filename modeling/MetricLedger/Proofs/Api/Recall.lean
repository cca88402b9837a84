import MetricLedger.Proofs.Api.Buffering
import MetricLedger.Proofs.Api.Listing
import MetricLedger.Proofs.Http.Escape
import MetricLedger.Proofs.Json.Range
import MetricLedger.Proofs.Metric.Submission

/-!
# Records found by their names

A name goes in as a JSON text and is asked for as an escaped value of a query. Both ways it is the
same text, and blank for both or for neither, so what has been recorded under a name is found by it.
-/

namespace MetricLedger.Api

open Json (Tree Document Literal whole Scalar)

/-- The members of an object to be recorded, its value as it is written. -/
def fields (name type : String) (literal : Bytes) : List (String × Tree) :=
  [("metric_name", .text name), ("metric_type", .text type), ("value", .number literal)]

/-- The text of the target that asks for the records of one name, the bytes of it escaped. -/
def search (raw : Bytes) : Bytes := path ++ ascii '?' :: Http.singleQuery "metric_name" raw

/-! ## Recording an object -/

/-- An object on one line. -/
def objectText (name type : String) (literal : Bytes) : Bytes :=
  let key (k : String) (rest : Bytes) := Text.Utf8.encode (Json.quote k) ++ ascii ':' :: rest
  ascii '\x7b' :: key "metric_name" (Text.Utf8.encode (Json.quote name) ++ ascii ',' ::
    key "metric_type" (Text.Utf8.encode (Json.quote type) ++ ascii ',' ::
      key "value" (literal ++ [ascii '\x7d'])))

theorem document_objectText (name type : String) {literal : Bytes} (h : Literal literal) :
    Document (.object (fields name type literal)) (objectText name type literal) := by
  have blank := Json.blank_nil
  have value (t : Bytes) := Json.member_quote "value" blank (Json.Written.number h (t := t))
  have type (t : Bytes) := Json.member_quote "metric_type" blank (Json.written_text type t)
  have name (t : Bytes) := Json.member_quote "metric_name" blank (Json.written_text name t)
  exact .mk .none (.object (.some .none (name _) (.next .none .none (type _)
    (.next .none .none (value _) (.close .none))))) .none

section
variable {ms : List (String × Tree)} {name type : String} {literal text : Bytes} {x : Double}
variable (perm : ms.Perm (fields name type literal)) (document : Document (.object ms) text)
variable (number : whole Scalar.read literal = .ok x)
include perm document number

/-- What an object asks to record, if it is in order. -/
theorem measurementOf_object {body : Http.Body} (unbroken : body.broken = none)
    (bytes : body.chunks.flatten = text) (fits : text.length ≤ bodyLimit) :
    measurementOf body =
      (Measurement.check ⟨name, type, x⟩).mapError fun flaw => .invalid (.flaw flaw) := by
  refine measurementOf_submission unbroken bytes fits (s := ⟨name, type, x⟩) ?_
  exact mapError_eq_ok_iff.mpr ((Submission.ofJson_eq_ok_iff document).mpr ⟨literal, perm, number⟩)

end

theorem answer_recorded {body : Http.Body} {m : Measurement} (h : measurementOf body = .ok m)
    (cors : Bool) (stamp : Stamp) (query : Option Bytes) (headers : List Http.Header) (l : Ledger) :
    let posted := answer cors Store.inMemory stamp (recording query headers body) l
    posted.1.status = .created ∧ posted.1.body = (Record.ofMeasurement m stamp).toJson.compact ∧
      posted.2 = l.append (Record.ofMeasurement m stamp) := by
  intro posted
  simp only [posted, answer_recording, create, h, Store.inMemory, dress_status, dress_body]
  exact ⟨rfl, rfl, trivial⟩

/-! ## Asking for a name -/

theorem literal_key : ∀ b ∈ Bytes.ofString "metric_name", Http.isLiteral b = true := by
  decide +kernel

theorem parse_search {raw s : Bytes} (h : Http.Escaped raw s)
    (short : (search raw).length ≤ 65534) : Http.Target.parse (search raw) =
      .ok ⟨path, some (Http.singleQuery "metric_name" raw)⟩ := by
  refine Http.Target.parse_path_query (by decide +kernel) (by decide +kernel) short
    (by decide +kernel) fun b mem => ?_
  have shown := Http.shown_singleQuery literal_key h b mem
  simp only [Http.isShown, Bool.and_eq_true, decide_eq_true_eq] at shown
  exact shown.1

theorem query_search {raw s : Bytes} (h : Http.Escaped raw s) :
    Http.Form.Query (Http.singleQuery "metric_name" raw) [(Bytes.ofString "metric_name", s)] :=
  Http.query_singleQuery literal_key h (by decide +kernel)

theorem names_search (name : String) :
    names [(Bytes.ofString "metric_name", Bytes.ofString name)] = [name] := by
  simp [names, Http.Form.text_ofString]

section
variable {name : String} {raw : Bytes} (escaped : Http.Escaped raw (Bytes.ofString name))
include escaped

theorem lists_search (shown : Text.isBlank name = false) (cors : Bool) (stamp : Stamp)
    (headers : List Http.Header) (body : Http.Body) (l : Ledger) :
    Lists (answer cors Store.inMemory stamp
      (listing (some (Http.singleQuery "metric_name" raw)) headers body) l).1 (l.named name) := by
  have asked := selection_of_one (query_search escaped) (names_search name) shown
  obtain ⟨status, text⟩ := answer_listing cors Store.inMemory stamp
    (some (Http.singleQuery "metric_name" raw)) headers body l
  rw [Option.getD_some, list_named asked] at status text
  exact lists_of_body status text

theorem refuses_search (blank : Text.isBlank name = true) (cors : Bool) (stamp : Stamp)
    (headers : List Http.Header) (body : Http.Body) (l : Ledger) :
    Refuses (answer cors Store.inMemory stamp
      (listing (some (Http.singleQuery "metric_name" raw)) headers body) l).1 := by
  have refused := selection_of_blank (query_search escaped) (names_search name) blank
  obtain ⟨status, text⟩ := answer_listing cors Store.inMemory stamp
    (some (Http.singleQuery "metric_name" raw)) headers body l
  rw [Option.getD_some, list_refused refused] at status text
  obtain ⟨bad, message, told⟩ := refuses_answer (.flaw .blankName)
  exact ⟨status.trans bad, message, text.trans told⟩

end

/-- What has been recorded under a name is found by it. For every name, type and number in range
there are objects with them and escaped forms of the name. Any of these objects within the limit is
recorded, and then any target in range with the name escaped lists records of that name, the new one
last. A blank name is refused both ways. -/
theorem recorded_is_found (cors : Bool) (l : Ledger) (name type : String) {literal : Bytes}
    {x : Double} (written : Literal literal) (number : whole Scalar.read literal = .ok x) :
    (∃ text, Document (.object (fields name type literal)) text) ∧
    (∃ raw, Http.Escaped raw (Bytes.ofString name)) ∧
    ∀ ms text raw, ms.Perm (fields name type literal) → Document (.object ms) text →
      text.length ≤ 2097152 → Http.Escaped raw (Bytes.ofString name) →
      (search raw).length ≤ 65534 →
      ∃ target, Http.Target.parse (search raw) = .ok target ∧
        ∀ (stamp later : Stamp) (query : Option Bytes) (headers headers' : List Http.Header)
          (body body' : Http.Body), body.broken = none → body.chunks.flatten = text →
          let posted := answer cors Store.inMemory stamp (recording query headers body) l
          let found := answer cors Store.inMemory later ⟨.get, target, headers', body'⟩ posted.2
          (Text.isBlank name = true → Refuses posted.1 ∧ Refuses found.1) ∧
          (Text.isBlank name = false → Text.isBlank type = false →
            ∃ (r : Record) (before : List Record),
              r.name = name ∧ r.type = type ∧ r.value = x ∧
              posted.1.status = .created ∧ posted.1.body = r.toJson.compact ∧
              Lists found.1 (before ++ [r]) ∧ ∀ other ∈ before, other.name = name) := by
  refine ⟨⟨_, document_objectText name type written⟩, Http.exists_escaped _, ?_⟩
  intro ms text raw perm document fits escaped short
  refine ⟨_, parse_search escaped short, ?_⟩
  intro stamp later query headers headers' body body' unbroken bytes posted found
  have asked := measurementOf_object perm document number unbroken bytes fits
  constructor
  · intro blank
    have refused : measurementOf body = .error (.invalid (.flaw .blankName)) := by
      rw [asked, Measurement.check, if_pos blank]
      rfl
    exact ⟨(fails_recording refused cors Store.inMemory stamp query headers l).1,
      refuses_search escaped blank cors later headers' body' posted.2⟩
  · intro name_shown type_shown
    have valid : Measurement.check ⟨name, type, x⟩ = .ok ⟨name, type, x⟩ :=
      Measurement.check_eq_ok_iff.mpr
        ⟨rfl, name_shown, type_shown, Json.isFinite_of_whole number⟩
    have accepted : measurementOf body = .ok ⟨name, type, x⟩ := by
      rw [asked, valid]
      rfl
    obtain ⟨status, told, kept⟩ := answer_recorded accepted cors stamp query headers l
    have lists := lists_search escaped name_shown cors later headers' body' posted.2
    refine ⟨.ofMeasurement ⟨name, type, x⟩ stamp, l.named name, rfl, rfl, rfl, status, told, ?_,
      fun other mem => (Ledger.mem_named.mp mem).2⟩
    have last : posted.2.named name =
        l.named name ++ [Record.ofMeasurement ⟨name, type, x⟩ stamp] := by
      simp only [posted, kept, Ledger.named_append]
      exact congrArg (l.named name ++ ·) (if_pos rfl)
    rwa [last] at lists

/-- A name with a blank and an ampersand is found by its escaped form. -/
theorem spaced_name_is_found : ∃ target before r,
    Http.Target.parse (search (Bytes.ofString "a%20%26")) = .ok target ∧ r.name = "a &" ∧
    Lists (answer true Store.inMemory ⟨⟨2⟩, ⟨1, 0, by decide⟩⟩
      ⟨.get, target, [], .ofBytes []⟩ (answer true Store.inMemory ⟨⟨1⟩, ⟨0, 0, by decide⟩⟩
        (recording none [] (.ofBytes (objectText "a &" "host" [ascii '2']))) .empty).2).1
      (before ++ [r]) := by
  have two : Literal [ascii '2'] := @Literal.positive [ascii '2'] [] []
    (.digits (by decide) ⟨by decide, fun b mem => List.mem_singleton.mp mem ▸ rfl⟩) .none .none
  have escaped : Http.Escaped (Bytes.ofString "a%20%26") (Bytes.ofString "a &") :=
    .plain (b := ascii 'a') (by decide) (.escape (c := ascii '2') (d := ascii '0') rfl rfl
      (.escape (c := ascii '2') (d := ascii '6') rfl rfl .nil))
  have number : whole Scalar.read [ascii '2'] = .ok (Double.ofNat 2) := rfl
  obtain ⟨-, -, all⟩ := recorded_is_found true .empty "a &" "host" two number
  obtain ⟨target, parsed, recorded⟩ := all _ _ _ (.refl _) (document_objectText _ _ two)
    (by decide) escaped (by decide)
  obtain ⟨-, found⟩ := recorded ⟨⟨1⟩, ⟨0, 0, by decide⟩⟩ ⟨⟨2⟩, ⟨1, 0, by decide⟩⟩ none [] []
    (.ofBytes (objectText "a &" "host" [ascii '2'])) (.ofBytes []) rfl
    (by simp [Http.Body.ofBytes])
  obtain ⟨r, before, name, -, -, -, -, lists, -⟩ := found (by decide) (by decide)
  exact ⟨target, before, r, parsed, name, lists⟩

end MetricLedger.Api
