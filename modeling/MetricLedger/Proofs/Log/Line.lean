import MetricLedger.Log.Event
import MetricLedger.Proofs.Json.NumberText
import MetricLedger.Proofs.Json.Unambiguity

/-!
# Log lines as JSON

The line of an event begins with its time. That begins as a number does, and goes on otherwise with
the hours. So a text that begins with such a line is no JSON document, whatever follows.
-/

namespace MetricLedger

namespace Json

/-- Only numbers begin with bytes of numbers. -/
theorem Tree.StartsWith.number {x : Tree} {b : UInt8} (h : x.StartsWith b)
    (part : isNumberByte b = true) : ∃ literal, x = .number literal := by
  cases x with
  | number literal => exact ⟨literal, rfl⟩
  | flag f => cases f <;> (cases h; exact absurd part (by decide))
  | _ => cases h; exact absurd part (by decide)

theorem not_isSpace_of_isNumberByte {b : UInt8} (h : isNumberByte b = true) :
    isSpace b = false := by
  refine Bool.eq_false_iff.mpr fun space => ?_
  have stops : Stops [b] := Gap.stops (.some space .none) stops_nil
  rw [stops b rfl] at h
  cases h

/-- A text that begins as a number does, and goes on otherwise, is no document. -/
theorem not_document {front rest : Bytes} {mark : UInt8} (filled : front ≠ [])
    (parts : ∀ b ∈ front, isNumberByte b = true) (stops : isNumberByte mark = false)
    (solid : isSpace mark = false) (x : Tree) : ¬ Document x (front ++ mark :: rest) := by
  intro document
  generalize whole : front ++ mark :: rest = s at document
  obtain ⟨before, written, after⟩ := document
  obtain ⟨b, others, rfl⟩ := List.exists_cons_of_ne_nil filled
  have first := parts b (List.mem_cons_self ..)
  obtain ⟨c, r, rfl, starts⟩ := written.cons
  rw [← whole] at before
  obtain ⟨rfl, same⟩ := before.unique .none starts.isSpace (not_isSpace_of_isNumberByte first)
  have same : c :: r = (c :: others) ++ mark :: rest := congrArg (c :: ·) same
  obtain ⟨literal, rfl⟩ := starts.number first
  rw [same] at written
  generalize again : (c :: others) ++ mark :: rest = t at written
  cases written with
  | number number =>
    have cut : ((c :: others) ++ mark :: rest).takeWhile isNumberByte = c :: others :=
      Text.takeWhile_append_stop parts (stops_cons stops rest)
    rw [again, takeWhile_literal number (after.stops stops_nil)] at cut
    rw [cut] at again
    rw [← List.append_cancel_left again, gap_nil_iff] at after
    rw [after mark (List.mem_cons_self ..)] at solid
    cases solid

/-- The characters that numbers, and dates in front of the hours, are made of. -/
def IsMark (c : Char) : Prop := Text.Digits.isDigit c = true ∨ c = '+' ∨ c = '-'

theorem numberBytes_encode {cs : List Char} (h : ∀ c ∈ cs, IsMark c) :
    ∀ b ∈ Text.Utf8.encode cs, isNumberByte b = true := by
  intro b mem
  obtain ⟨c, among, mem⟩ := List.mem_flatMap.mp mem
  rcases h c among with digit | rfl | rfl
  · obtain ⟨byte, small⟩ := isDigit_ascii digit
    rw [Text.Utf8.encodeChar_ascii small, List.mem_singleton] at mem
    simp [mem, isNumberByte, byte]
  · rw [List.mem_singleton.mp mem]
    decide
  · rw [List.mem_singleton.mp mem]
    decide

end Json

namespace Instant

open Json (IsMark)

theorem isMark_fixed (width n : Nat) : ∀ c ∈ Text.Digits.fixed width n, IsMark c :=
  fun c mem => .inl (Text.Digits.isDigit_fixed width n c mem)

theorem isMark_yearText (year : Int) : ∀ c ∈ yearText year, IsMark c := by
  rw [yearText]
  split
  · exact isMark_fixed 4 _
  · refine List.forall_mem_cons.mpr ⟨?_, fun c mem => .inl (Text.Digits.isDigit_padded 4 _ c mem)⟩
    split
    · exact .inr (.inr rfl)
    · exact .inr (.inl rfl)

/-- Up to the hours a time holds nothing that could not stand in a number. -/
theorem exists_microsText (t : Instant) : ∃ date rest, t.microsText.toList = date ++ 'T' :: rest ∧
    date ≠ [] ∧ ∀ c ∈ date, IsMark c := by
  refine ⟨yearText t.date.year ++ '-' :: Text.Digits.fixed 2 t.date.month ++
    '-' :: Text.Digits.fixed 2 t.date.day, ?_⟩
  have dash : IsMark '-' := .inr (.inr rfl)
  have marks := List.forall_mem_append.mpr ⟨List.forall_mem_append.mpr ⟨isMark_yearText t.date.year,
    List.forall_mem_cons.mpr ⟨dash, isMark_fixed 2 t.date.month⟩⟩,
    List.forall_mem_cons.mpr ⟨dash, isMark_fixed 2 t.date.day⟩⟩
  rw [microsText, String.toList_ofList, charsWith]
  generalize (if t.nanos < 1000000000 then _ else _ : Nat × Nat) = parts
  obtain ⟨second, nanos⟩ := parts
  apply Exists.intro
  refine ⟨?_, by simp, marks⟩
  simp only [List.append_assoc, List.cons_append]
  rfl

end Instant

/-- A text that begins with the line of an event is no document. -/
theorem Log.Event.not_document_lineAt (e : Event) (t : Instant) (behind : String) (x : Json.Tree) :
    ¬ Json.Document x (Bytes.ofString (e.lineAt t ++ behind)) := by
  obtain ⟨date, rest, time, filled, marks⟩ := t.exists_microsText
  have text : (e.lineAt t ++ behind).toList =
      date ++ 'T' :: (rest ++ (s!" {e.line}\n" ++ behind).toList) := by
    simp [lineAt, toString, time]
  rw [Bytes.ofString, text, Text.Utf8.encode_append, Text.Utf8.encode_cons]
  exact Json.not_document (Text.Utf8.encode_ne_nil filled) (Json.numberBytes_encode marks)
    (by decide) (by decide) x

end MetricLedger
