import MetricLedger.Proofs.Json.Extent
import MetricLedger.Proofs.Json.Object

/-!
# Reading a record from any value

A record may also stand in a list that has one value for each of its fields in turn. With that, what
a shape makes of a value is settled for all values, whatever their form: it is what its members or
items make up, and a fault for a value of any other kind.
-/

namespace MetricLedger.Json

/-- The row that the values of a list make up, the first of them having number `index`. -/
def arrange (expected : String) :
    (cs : List Column) → Meanings cs → (index : Nat) → List Tree → Except Cause (Row cs)
  | [], (), _, [] => .ok ()
  | [], (), _, _ :: _ => .error .trailingText
  | _ :: _, _, index, [] => .error (.tooShort index expected)
  | _ :: cs, (m, ms), index, v :: items =>
    (m.of v).bind fun value =>
      (arrange expected cs ms (index + 1) items).map fun row => (value, row)

/-- Values, one for each field in turn, that a row is made up from. -/
def Tells : (cs : List Column) → Meanings cs → List Tree → Row cs → Prop
  | [], (), items, () => items = []
  | _ :: cs, (m, ms), items, (value, row) =>
    ∃ v others, items = v :: others ∧ m.of v = .ok value ∧ Tells cs ms others row

/-- What a shape makes of a value. -/
def Shape.of (shape : Shape α) (ms : Meanings shape.columns) : Tree → Except Cause α
  | .object members => shape.gather ms members
  | .list items => (arrange shape.expectedValues shape.columns ms 0 items).map shape.build
  | v => .error (v.misfit shape.expected)

theorem arrange_eq_ok_iff {expected : String} {cs : List Column} {ms : Meanings cs} {index : Nat}
    {items : List Tree} {row : Row cs} :
    arrange expected cs ms index items = .ok row ↔ Tells cs ms items row := by
  induction cs generalizing index items with
  | nil =>
    cases items with
    | nil => exact ⟨fun _ => rfl, fun _ => rfl⟩
    | cons v items => exact ⟨nofun, nofun⟩
  | cons c cs ih =>
    obtain ⟨m, ms⟩ := ms
    obtain ⟨value, row⟩ := row
    cases items with
    | nil => exact ⟨nofun, nofun⟩
    | cons v items =>
      constructor
      · intro arranged
        rw [arrange] at arranged
        cases meant : m.of v with
        | error cause =>
          rw [meant] at arranged
          cases arranged
        | ok other =>
          rw [meant] at arranged
          obtain ⟨others, rest, pair⟩ := ok_of_map arranged
          cases pair
          exact ⟨v, items, rfl, meant, ih.mp rest⟩
      · rintro ⟨_, _, ⟨⟩, meant, rest⟩
        rw [arrange, meant]
        exact congrArg (Except.map _) (ih.mpr rest)

/-! ## Between the values -/

theorem endList_close {s t : Bytes} (h : Gap s (ascii ']' :: t)) : endList s = .ok t := by
  simp only [endList, h.skipSpace_cons (show isSpace (ascii ']') = false by decide), if_true]

section
variable {expected : String}

/-- A value is read and takes its place in the row, before what comes of the values behind it. -/
theorem readValues_value {c : Column} {cs : List Column} {m : @Meaning c.type c.scalar}
    {ms : Meanings cs} {index : Nat} {v : Tree} {items : List Tree} {r s t u : Bytes}
    (next : nextValue (index == 0) r = .ok (.item s)) (h : Written v s t) (ends : Ends t)
    (others : unplaced (readValues expected cs (index + 1) t) =
      (arrange expected cs ms (index + 1) items).map (·, u)) :
    unplaced (readValues expected (c :: cs) index r) =
      (arrange expected (c :: cs) (m, ms) index (v :: items)).map (·, u) := by
  simp only [readValues, next, arrange]
  obtain ⟨fault, failed, meant⟩ | ⟨value, read, meant⟩ :=
    unplaced_cases (m.read_written .none h ends)
  · rw [failed, meant]
    rfl
  · rw [read, meant]
    exact unplaced_map (fun row => (value, row)) others

theorem readValues_close {cs : List Column} (ms : Meanings cs) (index : Nat) {s t : Bytes}
    (h : Gap s (ascii ']' :: t)) :
    unplaced (readValues expected cs index s) = (arrange expected cs ms index []).map (·, t) := by
  cases cs with
  | nil =>
    rw [readValues, endList_close h]
    rfl
  | cons c cs =>
    simp only [readValues, nextValue_close _ h]
    rfl

/-- Where no field is left, a further value is one too many. -/
theorem readValues_comma (index : Nat) {v : Tree} {items : List Tree} {s t u w x : Bytes}
    (h : Gap s (ascii ',' :: t)) (g : Gap t u) (written : Written v u w) :
    unplaced (readValues expected [] index s) =
      (arrange expected [] () index (v :: items)).map (·, x) := by
  obtain ⟨b, r, rfl, first⟩ := written.cons
  simp only [readValues, endList, h.skipSpace_cons (show isSpace (ascii ',') = false by decide),
    g.skipSpace_cons first.isSpace, if_neg first.ne_mark.1]
  rfl

/-- The values behind a value are read one by one, up to the closing bracket. -/
theorem readValues_more {cs : List Column} (ms : Meanings cs) {index : Nat} {items : List Tree}
    {s t : Bytes} (h : More Written ']' items s t) :
    unplaced (readValues expected cs (index + 1) s) =
      (arrange expected cs ms (index + 1) items).map (·, t) := by
  induction h generalizing cs index with
  | close space => exact readValues_close ms _ space
  | next comma space written more ih =>
    cases cs with
    | nil => exact readValues_comma _ comma space written
    | cons c cs =>
      exact readValues_value (nextValue_next comma space written) written
        (more.ends (ends_cons (by decide) _)) (ih ms.2)

/-- All values of a list are read one by one. -/
theorem readValues_separated {cs : List Column} (ms : Meanings cs) {items : List Tree}
    {s t : Bytes} (h : Separated Written ']' items s t) :
    unplaced (readValues expected cs 0 s) = (arrange expected cs ms 0 items).map (·, t) := by
  cases h with
  | none space => exact readValues_close ms _ space
  | some space written more =>
    cases cs with
    | nil =>
      obtain ⟨b, r, rfl, first⟩ := written.cons
      simp only [readValues, endList, space.skipSpace_cons first.isSpace, if_neg first.ne_mark.1,
        if_neg first.ne_mark.2]
      rfl
    | cons c cs =>
      exact readValues_value (nextValue_first space written) written
        (more.ends (ends_cons (by decide) _)) (readValues_more ms.2 more)

end

/-! ## Any value -/

section
variable {shape : Shape α} (ms : Meanings shape.columns) {x : Tree} {r s t : Bytes}

/-- A list or an object is read up to its bracket, without a look at what follows. -/
theorem read_bracketed (bracketed : x.IsBracketed) (space : Gap r s) (h : Written x s t) :
    unplaced (shape.read r) = (shape.of ms x).map (·, t) := by
  cases h with
  | object separated => exact read_object ms space separated
  | list separated =>
    have bracket : isSpace (ascii '[') = false := by decide
    simp only [Shape.read, space.skipSpace_cons bracket]
    exact unplaced_map shape.build (readValues_separated ms separated)
  | _ => cases bracketed

theorem Shape.of_of_not_bracketed (other : ¬ x.IsBracketed) :
    shape.of ms x = .error (x.misfit shape.expected) := by
  cases x with
  | list => exact absurd trivial other
  | object => exact absurd trivial other
  | _ => rfl

theorem Shape.isBracketed_of_ok {a : α} (h : shape.of ms x = .ok a) : x.IsBracketed := by
  by_contra other
  rw [shape.of_of_not_bracketed ms other] at h
  cases h

/-- What is read from a value is settled by the value, whatever its form. -/
theorem read_written (space : Gap r s) (h : Written x s t) (ends : Ends t) :
    unplaced (shape.read r) = (shape.of ms x).map (·, t) := by
  by_cases bracketed : x.IsBracketed
  · exact read_bracketed ms bracketed space h
  · obtain ⟨b, u, rfl, first⟩ := h.cons
    obtain ⟨brace, bracket⟩ := first.not_bracketed bracketed
    rw [Shape.read, space.skipSpace_cons first.isSpace, Shape.of_of_not_bracketed ms bracketed,
      ← mismatch_cause h ends shape.expected]
    simp only [if_neg brace, if_neg bracket]
    rfl

theorem verdict_document (h : Document x s) :
    verdict shape.read s = shape.of ms x := by
  obtain ⟨before, written, after⟩ := h
  exact verdict_of_unplaced (read_written ms before written (after.ends ends_nil)) after

end

end MetricLedger.Json
