import MetricLedger.Proofs.Json.Recognition
import MetricLedger.Proofs.Json.Row

/-!
# The texts that hold a record

A strict shape accepts a text if and only if it is a form of a value that makes up a record. No
other text is accepted, and more text behind an accepted one is in order only if it is white space.
-/

namespace MetricLedger.Json

/-! ## Where an item begins -/

/-- The place of the next item, which a comma comes before unless the item is the first one. -/
inductive Reaches : Bool → Bytes → Bytes → Prop
  | first {s t : Bytes} : Gap s t → Reaches true s t
  | next {s t u : Bytes} : Gap s (ascii ',' :: t) → Gap t u → Reaches false s u

/-- The items from a place on, up to the closing bracket. -/
def Onward (item : α → Bytes → Bytes → Prop) (close : Char) (first : Bool) :
    List α → Bytes → Bytes → Prop :=
  if first then Separated item close else More item close

section
variable {item : α → Bytes → Bytes → Prop} {close : Char} {first : Bool} {s t u v : Bytes}

theorem Onward.none (h : Gap s (ascii close :: t)) : Onward item close first [] s t := by
  cases first with
  | true => exact Separated.none h
  | false => exact More.close h

theorem Reaches.onward {x : α} {xs : List α} (h : Reaches first s t) (written : item x t u)
    (more : Onward item close false xs u v) : Onward item close first (x :: xs) s v := by
  cases h with
  | first space => exact Separated.some space written more
  | next comma space => exact More.next comma space written more

theorem Reaches.past (h : Reaches first s t) (space : Gap t u) : Reaches first s u := by
  cases h with
  | first before => exact .first (before.trans space)
  | next comma before => exact .next comma (before.trans space)

end

section
variable {first : Bool} {s t : Bytes}

theorem gap_of_nextKey (h : nextKey first s = .ok (.closed t)) : Gap s (ascii '\x7d' :: t) := by
  grind [nextKey, gap_of_skipSpace]

theorem reaches_of_nextKey (h : nextKey first s = .ok (.item t)) :
    Reaches first s (ascii '"' :: t) := by
  cases first with
  | true =>
    apply Reaches.first
    grind [nextKey, gap_of_skipSpace]
  | false =>
    have comma : ∃ u, Gap s (ascii ',' :: u) ∧ Gap u (ascii '"' :: t) := by
      grind [nextKey, gap_of_skipSpace]
    obtain ⟨u, before, behind⟩ := comma
    exact .next before behind

theorem reaches_of_nextValue (h : nextValue first s = .ok (.item t)) : Reaches first s t := by
  cases first with
  | true =>
    apply Reaches.first
    grind [nextValue, gap_of_skipSpace]
  | false =>
    have comma : ∃ u, Gap s (ascii ',' :: u) ∧ Gap u t := by
      grind [nextValue, gap_of_skipSpace]
    obtain ⟨u, before, behind⟩ := comma
    exact .next before behind

theorem gap_of_endList (h : endList s = .ok t) : Gap s (ascii ']' :: t) := by
  grind [endList, gap_of_skipSpace]

theorem gap_of_readColon (h : readColon s = .ok t) : Gap s (ascii ':' :: t) := by
  grind [readColon, gap_of_skipSpace]

end

/-! ## What is accepted is of the grammar -/

section
variable {s t : Bytes}

theorem member_of_read? {key : String} {cs : List Column} {draft filled : Draft cs}
    (recognized : ∀ c ∈ cs, Recognizes c.scalar.read)
    (h : Draft.read? key s cs draft = some (.ok (filled, t))) :
    ∃ x u v, Gap s (ascii ':' :: u) ∧ Gap u v ∧ Written x v t := by
  induction cs with
  | nil => cases h
  | cons c cs ih =>
    obtain ⟨value, draft⟩ := draft
    obtain ⟨here, others⟩ := List.forall_mem_cons.mp recognized
    simp only [Draft.read?] at h
    split at h
    · rw [Option.some.injEq] at h
      split at h
      · cases h
      · split at h
        · cases h
        · rename_i u colon
          split at h
          · cases h
          · rename_i value r found
            cases h
            obtain ⟨x, v, space, written⟩ := here found
            exact ⟨x, u, v, gap_of_readColon colon, space, written⟩
    · obtain ⟨outcome, found, same⟩ := Option.map_eq_some_iff.mp h
      obtain ⟨⟨inner, r⟩, rfl, pair⟩ := ok_of_map same
      cases pair
      exact ih others found

variable {shape : Shape α} {a : α}

theorem members_of_readMembers {first : Bool} {draft : Draft shape.columns}
    (strict : shape.strict = true) (recognized : ∀ c ∈ shape.columns, Recognizes c.scalar.read)
    (h : readMembers shape first draft s = .ok (a, t)) :
    ∃ members, Onward (Member Written) '\x7d' first members s t := by
  fun_induction readMembers shape first draft s with
  | case3 first draft s r next row finished =>
    cases h
    exact ⟨[], .none (gap_of_nextKey next)⟩
  | case6 first draft s r next key q read d u found ih =>
    obtain ⟨members, more⟩ := ih h
    obtain ⟨cs, rfl, spelled⟩ := spelled_of_readText read
    obtain ⟨x, v, w, colon, space, written⟩ := member_of_read? recognized found
    have member := Member.mk spelled colon space written
    exact ⟨_ :: members, (reaches_of_nextKey next).onward member more⟩
  | case10 _ _ _ _ _ _ _ _ _ lax => exact absurd strict lax
  | _ => cases h

theorem items_of_readValues {expected : String} {cs : List Column} {index : Nat} {row : Row cs}
    (recognized : ∀ c ∈ cs, Recognizes c.scalar.read)
    (h : readValues expected cs index s = .ok (row, t)) :
    ∃ items, Onward Written ']' (index == 0) items s t := by
  induction cs generalizing index s with
  | nil =>
    obtain ⟨r, ended, pair⟩ := ok_of_map h
    cases pair
    exact ⟨[], .none (gap_of_endList ended)⟩
  | cons c cs ih =>
    obtain ⟨here, others⟩ := List.forall_mem_cons.mp recognized
    rw [readValues] at h
    split at h
    · cases h
    · cases h
    · rename_i r next
      split at h
      · cases h
      · rename_i value u found
        obtain ⟨⟨row, w⟩, rest, pair⟩ := ok_of_map h
        cases pair
        obtain ⟨items, more⟩ := ih others rest
        obtain ⟨x, v, space, written⟩ := here found
        exact ⟨x :: items, ((reaches_of_nextValue next).past space).onward written more⟩

theorem recognizes_shape (strict : shape.strict = true)
    (recognized : ∀ c ∈ shape.columns, Recognizes c.scalar.read) : Recognizes shape.read := by
  intro s t a h
  have bracket : (∃ r, skipSpace s = ascii '\x7b' :: r ∧
      readMembers shape true (Draft.empty shape.columns) r = .ok (a, t)) ∨
      ∃ r row, skipSpace s = ascii '[' :: r ∧
        readValues shape.expectedValues shape.columns 0 r = .ok (row, t) := by
    unfold Shape.read at h
    grind [→ ok_of_map]
  rcases bracket with ⟨r, front, read⟩ | ⟨r, row, front, read⟩
  · obtain ⟨members, separated⟩ := members_of_readMembers strict recognized read
    exact ⟨.object members, _, gap_of_skipSpace front, .object separated⟩
  · obtain ⟨items, separated⟩ := items_of_readValues recognized read
    exact ⟨.list items, _, gap_of_skipSpace front, .list separated⟩

end

/-! ## Accepted texts -/

section
variable {shape : Shape α} (ms : Meanings shape.columns) (strict : shape.strict = true)
  (recognized : ∀ c ∈ shape.columns, Recognizes c.scalar.read) {p s : Bytes} {a b : α}
include ms strict recognized

/-- A text is accepted if and only if it is a form of a value that makes up a record. -/
theorem whole_shape_eq_ok_iff :
    whole shape.read s = .ok a ↔ ∃ x, Document x s ∧ shape.of ms x = .ok a := by
  constructor
  · intro accepted
    obtain ⟨x, document⟩ := (recognizes_shape strict recognized).document accepted
    refine ⟨x, document, ?_⟩
    rw [← verdict_document ms document]
    exact verdict_eq_ok_iff.mpr accepted
  · rintro ⟨x, document, made⟩
    rw [← verdict_eq_ok_iff, verdict_document ms document, made]

/-- White space at the end of an accepted text may be left out. -/
theorem whole_shape_trim (h : whole shape.read (p ++ s) = .ok a)
    (space : ∀ b ∈ s, isSpace b = true) : whole shape.read p = .ok a := by
  obtain ⟨x, document, made⟩ := (whole_shape_eq_ok_iff ms strict recognized).mp h
  have trimmed := document.trim (shape.isBracketed_of_ok ms made) space
  exact (whole_shape_eq_ok_iff ms strict recognized).mpr ⟨x, trimmed, made⟩

/-- Behind an accepted text, white space changes nothing, and with anything else the text is not
accepted. -/
theorem whole_shape_append (h : whole shape.read p = .ok a) :
    whole shape.read (p ++ s) = .ok b ↔ b = a ∧ ∀ c ∈ s, isSpace c = true := by
  obtain ⟨x, ⟨before, written, after⟩, made⟩ := (whole_shape_eq_ok_iff ms strict recognized).mp h
  -- The value ends with its bracket, so it is read as far as before.
  have read := read_bracketed ms (shape.isBracketed_of_ok ms made)
    (framed_gap.append before s) ((framed_written x).append written s)
  obtain ⟨_, _, refused⟩ | ⟨c, read, found⟩ := unplaced_cases read
  · cases made.symm.trans refused
  · obtain rfl : a = c := Except.ok.inj (made.symm.trans found)
    rw [whole_eq_ok_iff, read]
    constructor
    · rintro ⟨rest, ⟨⟩, blank⟩
      exact ⟨rfl, fun b mem => gap_nil_iff.mp blank b (List.mem_append_right _ mem)⟩
    · rintro ⟨rfl, space⟩
      exact ⟨_, rfl, (framed_gap.append after s).trans (gap_nil_iff.mpr space)⟩

end

end MetricLedger.Json
