import MetricLedger.Proofs.Json.Numeral

/-!
# How far a form extends

A form of a value is settled by its own bytes: with anything else behind it, it is a form of the
same value. Lists and objects end with their bracket.
-/

namespace MetricLedger.Json

/-- What holds of a text up to a place holds with any other text from this place on. -/
def Framed (R : Bytes → Bytes → Prop) : Prop :=
  ∀ ⦃s t : Bytes⦄, R s t → ∃ form, s = form ++ t ∧ ∀ u, R (form ++ u) u

/-- The same of texts that end with a certain byte. -/
def Closed (b : UInt8) (R : Bytes → Bytes → Prop) : Prop :=
  ∀ ⦃s t : Bytes⦄, R s t → ∃ form, s = form ++ b :: t ∧ ∀ u, R (form ++ b :: u) u

theorem Closed.framed {b : UInt8} {R : Bytes → Bytes → Prop} (h : Closed b R) : Framed R := by
  intro s t held
  obtain ⟨form, rfl, all⟩ := h held
  refine ⟨form ++ [b], by simp, fun u => ?_⟩
  simpa using all u

/-- An induction over values; of a list or an object, the values in it come first. -/
@[elab_as_elim]
theorem Tree.induct {motive : Tree → Prop} (null : motive .null)
    (flag : ∀ b, motive (.flag b)) (number : ∀ literal, motive (.number literal))
    (text : ∀ s, motive (.text s))
    (list : ∀ items, (∀ x ∈ items, motive x) → motive (.list items))
    (object : ∀ members, (∀ m ∈ members, motive m.2) → motive (.object members)) (x : Tree) :
    motive x := by
  match x with
  | .null => exact null
  | .flag b => exact flag b
  | .number literal => exact number literal
  | .text s => exact text s
  | .list items => exact list items fun y _ => Tree.induct null flag number text list object y
  | .object members =>
    exact object members fun m _ => Tree.induct null flag number text list object m.2
termination_by x
decreasing_by
  · have := List.sizeOf_lt_of_mem ‹y ∈ items›
    simp only [Tree.list.sizeOf_spec]
    omega
  · have := List.sizeOf_lt_of_mem ‹m ∈ members›
    obtain ⟨key, v⟩ := m
    simp only [Tree.object.sizeOf_spec, Prod.mk.sizeOf_spec] at *
    omega

theorem framed_gap : Framed Gap := by
  intro s t h
  induction h with
  | none => exact ⟨[], rfl, fun u => .none⟩
  | @some b s t space _ ih =>
    obtain ⟨form, rfl, all⟩ := ih
    exact ⟨b :: form, rfl, fun u => .some space (all u)⟩

theorem framed_quad (n : Nat) : Framed (Quad n) := by
  rintro s t ⟨a, b, c, d⟩
  exact ⟨[_, _, _, _, _, _], rfl, fun u => .mk a b c d⟩

theorem framed_spelled (cs : List Char) : Framed (Spelled cs) := by
  intro s t h
  induction h with
  | done => exact ⟨[_], rfl, fun u => .done⟩
  | @plain c cs s t low quote backslash _ ih =>
    obtain ⟨form, rfl, all⟩ := ih
    refine ⟨Text.Utf8.encodeChar c ++ form, (List.append_assoc ..).symm, fun u => ?_⟩
    rw [List.append_assoc]
    exact .plain low quote backslash (all u)
  | short mem _ ih =>
    obtain ⟨form, rfl, all⟩ := ih
    exact ⟨_ :: _ :: form, rfl, fun u => .short mem (all u)⟩
  | code quad _ ih =>
    obtain ⟨form, rfl, all⟩ := ih
    obtain ⟨digits, rfl, quads⟩ := framed_quad _ quad
    refine ⟨digits ++ form, (List.append_assoc ..).symm, fun u => ?_⟩
    rw [List.append_assoc]
    exact .code (quads _) (all u)
  | surrogates high low code first second _ ih =>
    obtain ⟨form, rfl, all⟩ := ih
    obtain ⟨digits', rfl, quads'⟩ := framed_quad _ second
    obtain ⟨digits, rfl, quads⟩ := framed_quad _ first
    refine ⟨digits ++ (digits' ++ form), by simp only [List.append_assoc], fun u => ?_⟩
    simp only [List.append_assoc]
    exact .surrogates high low code (quads _) (quads' _) (all u)

section
variable {item : α → Bytes → Bytes → Prop} {xs : List α}

theorem closed_more (close : Char) (framed : ∀ x ∈ xs, Framed (item x)) :
    Closed (ascii close) (More item close xs) := by
  intro s t h
  induction h with
  | close space =>
    obtain ⟨gap, rfl, gaps⟩ := framed_gap space
    exact ⟨gap, rfl, fun u => .close (gaps _)⟩
  | next comma space written _ ih =>
    obtain ⟨first, others⟩ := List.forall_mem_cons.mp framed
    obtain ⟨form, rfl, all⟩ := ih others
    obtain ⟨value, rfl, values⟩ := first written
    obtain ⟨gap', rfl, gaps'⟩ := framed_gap space
    obtain ⟨gap, rfl, gaps⟩ := framed_gap comma
    refine ⟨gap ++ ascii ',' :: (gap' ++ (value ++ form)), by simp, fun u => ?_⟩
    simp only [List.append_assoc, List.cons_append]
    exact .next (gaps _) (gaps' _) (values _) (all u)

theorem closed_separated (close : Char) (framed : ∀ x ∈ xs, Framed (item x)) :
    Closed (ascii close) (Separated item close xs) := by
  intro s t h
  cases h with
  | none space =>
    obtain ⟨gap, rfl, gaps⟩ := framed_gap space
    exact ⟨gap, rfl, fun u => .none (gaps _)⟩
  | some space written more =>
    obtain ⟨first, others⟩ := List.forall_mem_cons.mp framed
    obtain ⟨form, rfl, all⟩ := closed_more close others more
    obtain ⟨value, rfl, values⟩ := first written
    obtain ⟨gap, rfl, gaps⟩ := framed_gap space
    refine ⟨gap ++ (value ++ form), by simp, fun u => ?_⟩
    simp only [List.append_assoc]
    exact .some (gaps _) (values _) (all u)

end

theorem framed_member {m : String × Tree} (h : Framed (Written m.2)) :
    Framed (Member Written m) := by
  rintro s t ⟨spelled, colon, space, written⟩
  obtain ⟨value, rfl, values⟩ := h written
  obtain ⟨gap', rfl, gaps'⟩ := framed_gap space
  obtain ⟨gap, rfl, gaps⟩ := framed_gap colon
  obtain ⟨key, rfl, keys⟩ := framed_spelled _ spelled
  refine ⟨ascii '"' :: (key ++ (gap ++ ascii ':' :: (gap' ++ value))), by simp, fun u => ?_⟩
  simp only [List.append_assoc, List.cons_append]
  exact .mk (keys _) (gaps _) (gaps' _) (values u)

theorem closed_list {items : List Tree} (framed : ∀ x ∈ items, Framed (Written x)) :
    Closed (ascii ']') (Written (.list items)) := by
  intro s t h
  cases h with
  | list separated =>
    obtain ⟨form, rfl, all⟩ := closed_separated ']' framed separated
    exact ⟨ascii '[' :: form, rfl, fun u => .list (all u)⟩

theorem closed_object {members : List (String × Tree)}
    (framed : ∀ m ∈ members, Framed (Written m.2)) :
    Closed (ascii '\x7d') (Written (.object members)) := by
  intro s t h
  cases h with
  | object separated =>
    obtain ⟨form, rfl, all⟩ :=
      closed_separated '\x7d' (fun m mem => framed_member (framed m mem)) separated
    exact ⟨ascii '\x7b' :: form, rfl, fun u => .object (all u)⟩

/-- A form of a value is one whatever follows it. -/
theorem framed_written (x : Tree) : Framed (Written x) := by
  induction x using Tree.induct with
  | null =>
    intro s t h
    cases h
    exact ⟨_, rfl, fun u => .null⟩
  | flag b =>
    intro s t h
    cases h
    exact ⟨_, rfl, fun u => .flag⟩
  | number literal =>
    intro s t h
    cases h with
    | number written => exact ⟨_, rfl, fun u => .number written⟩
  | text s =>
    intro s t h
    cases h with
    | text spelled =>
      obtain ⟨form, rfl, all⟩ := framed_spelled _ spelled
      exact ⟨ascii '"' :: form, rfl, fun u => .text (all u)⟩
  | list items ih => exact (closed_list ih).framed
  | object members ih => exact (closed_object ih).framed

/-- Lists and objects, the values that end with a bracket. -/
def Tree.IsBracketed : Tree → Prop
  | .list _ | .object _ => True
  | _ => False

theorem closed_of_isBracketed {x : Tree} (h : x.IsBracketed) :
    ∃ b, isSpace b = false ∧ Closed b (Written x) := by
  cases x with
  | list items => exact ⟨_, by decide, closed_list fun x _ => framed_written x⟩
  | object members => exact ⟨_, by decide, closed_object fun m _ => framed_written m.2⟩
  | _ => cases h

theorem Framed.append {R : Bytes → Bytes → Prop} (h : Framed R) {s t : Bytes} (held : R s t)
    (u : Bytes) : R (s ++ u) (t ++ u) := by
  obtain ⟨form, rfl, all⟩ := h held
  rw [List.append_assoc]
  exact all _

/-! ## White space at the end -/

theorem gap_nil_iff {s : Bytes} : Gap s [] ↔ ∀ b ∈ s, isSpace b = true := by
  constructor
  · intro h
    generalize nil : ([] : Bytes) = t at h
    induction h with
    | none => simp [← nil]
    | some space _ ih => exact List.forall_mem_cons.mpr ⟨space, ih nil⟩
  · intro h
    induction s with
    | nil => exact .none
    | cons b s ih =>
      obtain ⟨space, others⟩ := List.forall_mem_cons.mp h
      exact .some space (ih others)

/-- White space at the end of a list or an object belongs to no part of it. -/
theorem Document.trim {x : Tree} {p s : Bytes} (bracketed : x.IsBracketed)
    (h : Document x (p ++ s)) (space : ∀ b ∈ s, isSpace b = true) : Document x p := by
  generalize whole : p ++ s = text at h
  obtain ⟨before, written, after⟩ := h
  obtain ⟨b, mark, closed⟩ := closed_of_isBracketed bracketed
  obtain ⟨form, rfl, forms⟩ := closed written
  obtain ⟨gap, rfl, gaps⟩ := framed_gap before
  -- The bracket is no white space, so it stands in what is kept.
  have solid : b ∉ s := fun mem => by simp [space b mem] at mark
  rw [← List.append_assoc, List.append_eq_append_iff] at whole
  rcases whole with ⟨rest, -, rfl⟩ | ⟨rest, rfl, tail⟩
  · simp at solid
  · cases rest with
    | nil => simp [← show b :: _ = s from tail] at solid
    | cons c rest =>
      obtain ⟨rfl, rfl⟩ := List.cons.inj tail
      have blank := gap_nil_iff.mpr fun d mem =>
        gap_nil_iff.mp after d (List.mem_append_left s mem)
      rw [List.append_assoc]
      exact ⟨gaps _, forms rest, blank⟩

end MetricLedger.Json
