import MetricLedger.Proofs.Json.Extent
import MetricLedger.Proofs.Json.Object
import MetricLedger.Proofs.Text.Pieces

/-!
# A text has one value

A text is a form of one value at most. Two values that a text begins with are of one kind, by their
first byte. Texts end at the first bare quote, lists and objects at their bracket; only a number
goes on for as long as there are bytes that could belong to it.
-/

namespace MetricLedger.Json

/-! ## Numbers -/

def isNumberByte (b : UInt8) : Bool :=
  isDigit b || b == ascii '.' || b == ascii 'e' || b == ascii 'E' || b == ascii '+'
    || b == ascii '-'

/-- What follows a value holds no more of a number. Signs count as well, so this is more than
`Ends`. -/
def Stops (t : Bytes) : Prop := ∀ b ∈ t.head?, isNumberByte b = false

theorem Digits.numberBytes {s : Bytes} (h : Digits s) : ∀ b ∈ s, isNumberByte b = true := by
  intro b mem
  simp [isNumberByte, h.2 b mem]

theorem Whole.numberBytes {w : Bytes} (h : Whole w) : ∀ b ∈ w, isNumberByte b = true := by
  cases h with
  | zero => exact List.forall_mem_singleton.mpr (by decide)
  | digits _ digits => exact digits.numberBytes

theorem Fraction.numberBytes {f : Bytes} (h : Fraction f) : ∀ b ∈ f, isNumberByte b = true := by
  cases h with
  | none => simp
  | some digits => exact List.forall_mem_cons.mpr ⟨by decide, digits.numberBytes⟩

theorem Exponent.numberBytes {x : Bytes} (h : Exponent x) : ∀ b ∈ x, isNumberByte b = true := by
  cases h with
  | none => simp
  | some mark sign digits =>
    refine List.forall_mem_cons.mpr ⟨by rcases mark with rfl | rfl <;> decide, ?_⟩
    refine List.forall_mem_append.mpr ⟨?_, digits.numberBytes⟩
    rcases sign with rfl | rfl | rfl
    · exact List.forall_mem_nil _
    · exact List.forall_mem_singleton.mpr (by decide)
    · exact List.forall_mem_singleton.mpr (by decide)

theorem Literal.numberBytes {literal : Bytes} (h : Literal literal) :
    ∀ b ∈ literal, isNumberByte b = true := by
  cases h with
  | positive w f x =>
    exact List.forall_mem_append.mpr
      ⟨w.numberBytes, List.forall_mem_append.mpr ⟨f.numberBytes, x.numberBytes⟩⟩
  | negative w f x =>
    exact List.forall_mem_cons.mpr ⟨by decide, List.forall_mem_append.mpr
      ⟨w.numberBytes, List.forall_mem_append.mpr ⟨f.numberBytes, x.numberBytes⟩⟩⟩

theorem takeWhile_literal {literal t : Bytes} (h : Literal literal) (stops : Stops t) :
    (literal ++ t).takeWhile isNumberByte = literal :=
  Text.takeWhile_append_stop h.numberBytes stops

theorem stops_nil : Stops [] := by simp [Stops]

theorem stops_cons {b : UInt8} (h : isNumberByte b = false) (s : Bytes) : Stops (b :: s) := by
  simpa [Stops] using h

theorem Gap.stops {s t : Bytes} (h : Gap s t) (stops : Stops t) : Stops s := by
  cases h with
  | none => exact stops
  | @some b s t space =>
    refine stops_cons ?_ s
    simp only [isSpace, Bool.or_eq_true, beq_iff_eq] at space
    rcases space with ((rfl | rfl) | rfl) | rfl <;> decide

/-! ## Items -/

section
variable {item : α → Bytes → Bytes → Prop} {close : Char}

/-- A text that is an item with something behind it is so in one way only. -/
def Unambiguous (item : α → Bytes → Bytes → Prop) (x : α) : Prop :=
  ∀ ⦃y : α⦄ ⦃s t u : Bytes⦄, item x s t → item y s u → Stops t → Stops u → x = y ∧ t = u

/-- Items begin neither with white space nor with what closes them. -/
def Solid (item : α → Bytes → Bytes → Prop) (close : Char) : Prop :=
  ∀ ⦃x : α⦄ ⦃s t : Bytes⦄, item x s t →
    ∃ b r, s = b :: r ∧ isSpace b = false ∧ b ≠ ascii close

theorem Gap.unique {s t u : Bytes} {b c : UInt8} (h : Gap s (b :: t)) (g : Gap s (c :: u))
    (hb : isSpace b = false) (hc : isSpace c = false) : b = c ∧ t = u :=
  List.cons.inj ((h.skipSpace_cons hb).symm.trans (g.skipSpace_cons hc))

theorem Gap.unique_item (solid : Solid item close) {x y : α} {s t u v w : Bytes} (h : Gap s t)
    (g : Gap s u) (hx : item x t v) (hy : item y u w) : t = u := by
  obtain ⟨b, r, rfl, hb, -⟩ := solid hx
  obtain ⟨c, q, rfl, hc, -⟩ := solid hy
  obtain ⟨rfl, rfl⟩ := h.unique g hb hc
  rfl

/-- A bracket that closes a list or an object. -/
structure Closing (b : UInt8) : Prop where
  space : isSpace b = false
  comma : b ≠ ascii ','
  stops : isNumberByte b = false

theorem More.stops {xs : List α} {s t : Bytes} (h : More item close xs s t)
    (closing : Closing (ascii close)) : Stops s := by
  cases h with
  | close space => exact space.stops (stops_cons closing.stops _)
  | next comma => exact comma.stops (stops_cons (by decide) _)

theorem More.unique {xs ys : List α} {s t u : Bytes} (closing : Closing (ascii close))
    (solid : Solid item close) (single : ∀ x ∈ xs, Unambiguous item x) (h : More item close xs s t)
    (g : More item close ys s u) : xs = ys ∧ t = u := by
  induction h generalizing ys with
  | close space =>
    cases g with
    | close space' => exact ⟨rfl, (space.unique space' closing.space closing.space).2⟩
    | next comma' => exact absurd (space.unique comma' closing.space (by decide)).1 closing.comma
  | next comma space written more ih =>
    cases g with
    | close space' =>
      exact absurd (space'.unique comma closing.space (by decide)).1 closing.comma
    | next comma' space' written' more' =>
      obtain ⟨first, others⟩ := List.forall_mem_cons.mp single
      obtain ⟨-, rfl⟩ := comma.unique comma' (by decide) (by decide)
      obtain rfl := space.unique_item solid space' written written'
      obtain ⟨rfl, rfl⟩ := first written written' (more.stops closing) (more'.stops closing)
      obtain ⟨rfl, rfl⟩ := ih others more'
      exact ⟨rfl, rfl⟩

theorem Separated.unique {xs ys : List α} {s t u : Bytes} (closing : Closing (ascii close))
    (solid : Solid item close) (single : ∀ x ∈ xs, Unambiguous item x)
    (h : Separated item close xs s t) (g : Separated item close ys s u) : xs = ys ∧ t = u := by
  cases h with
  | none space =>
    cases g with
    | none space' => exact ⟨rfl, (space.unique space' closing.space closing.space).2⟩
    | some space' written' =>
      obtain ⟨b, r, rfl, hb, other⟩ := solid written'
      exact absurd (space'.unique space hb closing.space).1 other
  | some space written more =>
    cases g with
    | none space' =>
      obtain ⟨b, r, rfl, hb, other⟩ := solid written
      exact absurd (space.unique space' hb closing.space).1 other
    | some space' written' more' =>
      obtain ⟨first, others⟩ := List.forall_mem_cons.mp single
      obtain rfl := space.unique_item solid space' written written'
      obtain ⟨rfl, rfl⟩ := first written written' (more.stops closing) (more'.stops closing)
      obtain ⟨rfl, rfl⟩ := more.unique closing solid others more'
      exact ⟨rfl, rfl⟩

end

/-! ## Values -/

/-- Whether values are of one kind; the two flags are told apart. -/
def Tree.Alike : Tree → Tree → Prop
  | .null, .null => True
  | .flag a, .flag b => a = b
  | .number _, .number _ => True
  | .text _, .text _ => True
  | .list _, .list _ => True
  | .object _, .object _ => True
  | _, _ => False

theorem Tree.StartsWith.alike {x y : Tree} {b : UInt8} (h : x.StartsWith b)
    (g : y.StartsWith b) : x.Alike y := by
  cases x <;> cases y <;> simp only [Tree.StartsWith, Tree.Alike] at h g ⊢ <;> grind [digit_ne]

theorem solid_written : Solid Written ']' := by
  intro x s t h
  obtain ⟨b, r, rfl, first⟩ := h.cons
  exact ⟨b, r, rfl, first.isSpace, first.ne_mark.1⟩

theorem solid_member : Solid (Member Written) '\x7d' := by
  intro m s t h
  obtain ⟨r, rfl⟩ := h.cons
  exact ⟨_, r, rfl, by decide, by decide⟩

theorem Spelled.unique {cs ds : List Char} {s t u : Bytes} (h : Spelled cs s t)
    (g : Spelled ds s u) : String.ofList cs = String.ofList ds ∧ t = u := by
  have same := h.readText_eq.symm.trans g.readText_eq
  simpa using same

theorem unambiguous_member {m : String × Tree} (h : Unambiguous Written m.2) :
    Unambiguous (Member Written) m := by
  rintro m' s t u ⟨spelled, colon, space, written⟩ g stops stops'
  cases g with
  | mk spelled' colon' space' written' =>
    obtain ⟨key, rfl⟩ := spelled.unique spelled'
    obtain ⟨-, rfl⟩ := colon.unique colon' (by decide) (by decide)
    obtain rfl := space.unique_item solid_written space' written written'
    obtain ⟨value, rfl⟩ := h written written' stops stops'
    exact ⟨Prod.ext key value, rfl⟩

theorem unambiguous_of_alike {x : Tree} (single : ∀ ⦃y s t u⦄, x.Alike y → Written x s t →
    Written y s u → Stops t → Stops u → x = y ∧ t = u) : Unambiguous Written x := by
  intro y s t u h g
  obtain ⟨b, r, rfl, first⟩ := h.cons
  obtain ⟨c, q, same, first'⟩ := g.cons
  obtain ⟨rfl, -⟩ := List.cons.inj same
  exact single (first.alike first') h g

/-- A text that begins with a value does so with one value only, which ends at one place. -/
theorem unambiguous_written (x : Tree) : Unambiguous Written x := by
  induction x using Tree.induct with
  | null =>
    refine unambiguous_of_alike fun y s t u alike h g _ _ => ?_
    cases y <;> cases alike
    cases h
    generalize whole : Bytes.ofString "null" ++ t = s at g
    cases g
    exact ⟨rfl, List.append_cancel_left whole⟩
  | flag b =>
    refine unambiguous_of_alike fun y s t u alike h g _ _ => ?_
    cases y <;> cases alike
    cases h
    generalize whole : Bytes.ofString (if b then "true" else "false") ++ t = s at g
    cases g
    exact ⟨rfl, List.append_cancel_left whole⟩
  | number literal =>
    refine unambiguous_of_alike fun y s t u alike h g stops stops' => ?_
    cases y <;> cases alike
    cases h with
    | number written =>
      generalize whole : literal ++ t = s at g
      cases g with
      | number written' =>
        -- One number may begin with another; where they end is told by what follows.
        obtain rfl : literal = _ := by
          rw [← takeWhile_literal written stops, whole, takeWhile_literal written' stops']
        exact ⟨rfl, List.append_cancel_left whole⟩
  | text s =>
    refine unambiguous_of_alike fun y s t u alike h g _ _ => ?_
    cases y <;> cases alike
    cases h with
    | text spelled =>
      cases g with
      | text spelled' =>
        obtain ⟨same, rfl⟩ := spelled.unique spelled'
        exact ⟨congrArg Tree.text same, rfl⟩
  | list items ih =>
    refine unambiguous_of_alike fun y s t u alike h g _ _ => ?_
    cases y <;> cases alike
    cases h with
    | list separated =>
      cases g with
      | list separated' =>
        have closing : Closing (ascii ']') := ⟨by decide, by decide, by decide⟩
        obtain ⟨rfl, rfl⟩ := separated.unique closing solid_written ih separated'
        exact ⟨rfl, rfl⟩
  | object members ih =>
    refine unambiguous_of_alike fun y s t u alike h g _ _ => ?_
    cases y <;> cases alike
    cases h with
    | object separated =>
      cases g with
      | object separated' =>
        have closing : Closing (ascii '\x7d') := ⟨by decide, by decide, by decide⟩
        have single := fun m mem => unambiguous_member (ih m mem)
        obtain ⟨rfl, rfl⟩ := separated.unique closing solid_member single separated'
        exact ⟨rfl, rfl⟩

/-- A text is a form of one value at most. -/
theorem Document.unique {x y : Tree} {s : Bytes} (h : Document x s) (g : Document y s) :
    x = y := by
  obtain ⟨before, written, after⟩ := h
  obtain ⟨before', written', after'⟩ := g
  obtain rfl := before.unique_item solid_written before' written written'
  exact (unambiguous_written x written written' (after.stops stops_nil)
    (after'.stops stops_nil)).1

theorem Document.iff_eq {x y : Tree} {s : Bytes} (h : Document x s) : Document y s ↔ y = x :=
  ⟨fun other => other.unique h, fun same => same ▸ h⟩

end MetricLedger.Json
