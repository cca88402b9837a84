import MetricLedger.Proofs.Json.Skip

/-!
# Reading objects

What is read from an object is settled by its members: by the value of each and, as far as a fault
is concerned, by their order. A shape takes its fields from them one by one.
-/

namespace MetricLedger.Json

/-- A meaning for each field. -/
def Meanings : List Column → Type
  | [] => Unit
  | c :: cs => @Meaning c.type c.scalar × Meanings cs

/-- Fills the field `key` of a draft from a value; `none` if there is no such field. -/
def Draft.put? (key : String) (v : Tree) :
    (cs : List Column) → Meanings cs → Draft cs → Option (Except Cause (Draft cs))
  | [], (), () => none
  | c :: cs, (m, ms), (value, draft) =>
    if key = c.name then
      some (match value with
        | some _ => .error (.repeated key)
        | none => (m.of v).map fun x => (some x, draft))
    else (Draft.put? key v cs ms draft).map fun found => found.map fun d => (value, d)

namespace Shape
variable (shape : Shape α) (ms : Meanings shape.columns)

/-- Fills fields from members, one after the other. -/
def collect : List (String × Tree) → Draft shape.columns → Except Cause (Draft shape.columns)
  | [], draft => .ok draft
  | (key, v) :: members, draft =>
    match Draft.put? key v shape.columns ms draft with
    | some (.ok draft) => collect members draft
    | some (.error cause) => .error cause
    | none => if shape.strict then .error (.unknown key shape.keys) else collect members draft

/-- Ends a record whose members have all been seen. -/
def conclude (draft : Draft shape.columns) : Except Cause α :=
  (Draft.finish shape.columns draft).map shape.build

/-- The record that has the given members. -/
def gather (members : List (String × Tree)) : Except Cause α :=
  (shape.collect ms members (Draft.empty shape.columns)).bind shape.conclude

/-- No member has to be passed over. -/
def Covers (members : List (String × Tree)) : Prop :=
  shape.strict = true ∨ ∀ m ∈ members, m.1 ∈ shape.keys

end Shape

/-! ## Between the members -/

theorem readColon_gap {s t : Bytes} (h : Gap s (ascii ':' :: t)) : readColon s = .ok t := by
  simp only [readColon, h.skipSpace_cons (show isSpace (ascii ':') = false by decide), if_true]

theorem nextKey_close (first : Bool) {s t : Bytes} (h : Gap s (ascii '\x7d' :: t)) :
    nextKey first s = .ok (.closed t) := by
  simp only [nextKey, h.skipSpace_cons (show isSpace (ascii '\x7d') = false by decide), if_true]

theorem nextKey_first {s t : Bytes} (h : Gap s (ascii '"' :: t)) :
    nextKey true s = .ok (.item t) := by
  simp only [nextKey, h.skipSpace_cons (show isSpace (ascii '"') = false by decide)]
  rfl

theorem nextKey_next {s t u : Bytes} (h : Gap s (ascii ',' :: t)) (g : Gap t (ascii '"' :: u)) :
    nextKey false s = .ok (.item u) := by
  simp only [nextKey, h.skipSpace_cons (show isSpace (ascii ',') = false by decide),
    g.skipSpace_cons (show isSpace (ascii '"') = false by decide)]
  rfl

/-! ## One member -/

theorem Draft.read?_written (key : String) {v : Tree} {r s t u : Bytes}
    (colon : Gap r (ascii ':' :: s)) (space : Gap s t) (h : Written v t u) (ends : Ends u)
    (cs : List Column) (ms : Meanings cs) (draft : Draft cs) :
    (Draft.read? key r cs draft).map unplaced =
      (Draft.put? key v cs ms draft).map fun found => found.map (·, u) := by
  induction cs with
  | nil => rfl
  | cons c cs ih =>
    obtain ⟨value, draft⟩ := draft
    obtain ⟨m, ms⟩ := ms
    by_cases same : key = c.name
    · simp only [Draft.read?, Draft.put?, if_pos same, Option.map_some, Option.some.injEq]
      cases value with
      | some x => rfl
      | none =>
        simp only [readColon_gap colon]
        obtain ⟨fault, read, meant⟩ | ⟨x, read, meant⟩ :=
            unplaced_cases (m.read_written space h ends) <;>
          simp only [read, meant] <;> rfl
    · simp only [Draft.read?, Draft.put?, if_neg same, Option.map_map]
      have rest := congrArg (Option.map (Except.map fun p => ((value, p.1), p.2))) (ih ms draft)
      simp only [Option.map_map] at rest
      refine Eq.trans ?_ (rest.trans ?_)
      · congr 1; funext found; cases found <;> rfl
      · congr 1; funext found; cases found <;> rfl

theorem Draft.put?_isSome {key : String} {v : Tree} {cs : List Column}
    (h : key ∈ cs.map Column.name) (ms : Meanings cs) (draft : Draft cs) :
    (Draft.put? key v cs ms draft).isSome := by
  induction cs with
  | nil => cases h
  | cons c cs ih =>
    obtain ⟨value, draft⟩ := draft
    obtain ⟨m, ms⟩ := ms
    by_cases same : key = c.name
    · simp only [Draft.put?, if_pos same, Option.isSome_some]
    · simp only [Draft.put?, if_neg same, Option.isSome_map]
      exact ih ((List.mem_cons.mp h).resolve_left same) ms draft

/-! ## All members -/

section
variable {shape : Shape α} (ms : Meanings shape.columns)

theorem readMembers_close (first : Bool) (draft : Draft shape.columns) {s t : Bytes}
    (h : Gap s (ascii '\x7d' :: t)) :
    unplaced (readMembers shape first draft s) = (shape.conclude draft).map (·, t) := by
  have next := nextKey_close first h
  rw [readMembers]
  split <;> rename_i found <;> rw [next] at found <;> cases found
  simp only [Shape.conclude]
  cases Draft.finish shape.columns draft <;> rfl

theorem Shape.strict_of_put? {ms : Meanings shape.columns} {key : String} {v : Tree}
    {draft : Draft shape.columns} (covered : shape.strict = true ∨ key ∈ shape.keys)
    (h : Draft.put? key v shape.columns ms draft = none) : shape.strict = true := by
  refine covered.resolve_right fun known => ?_
  have filled := Draft.put?_isSome (v := v) known ms draft
  rw [h] at filled
  cases filled

/-- A member is read and its value goes into its field, or is passed over if there is no such field,
before what comes of the members behind it. -/
theorem readMembers_member {first : Bool} {m : String × Tree} {members : List (String × Tree)}
    {draft : Draft shape.columns} {r s t u : Bytes} (next : nextKey first r = .ok (.item s))
    (h : Member Written m (ascii '"' :: s) t) (ends : Ends t)
    (others : ∀ draft, unplaced (readMembers shape false draft t) =
      ((shape.collect ms members draft).bind shape.conclude).map (·, u)) :
    unplaced (readMembers shape first draft r) =
      ((shape.collect ms (m :: members) draft).bind shape.conclude).map (·, u) := by
  obtain @⟨key, v, s, x, y, z, t, spelled, colon, space, value⟩ := h
  have read := Draft.read?_written (String.ofList key) colon space value ends shape.columns ms draft
  have text := spelled.readText_eq
  rw [readMembers, Shape.collect]
  split <;> rename_i found <;> rw [next] at found <;> cases found
  split <;> rename_i found <;> rw [text] at found <;> cases found
  cases put : Draft.put? (String.ofList key) v shape.columns ms draft with
  | none =>
    rw [put, Option.map_none, Option.map_eq_none_iff] at read
    split <;> rename_i found <;> rw [read] at found <;> cases found
    cases strict : shape.strict with
    | true => rfl
    | false =>
      have column := readColon_gap colon
      have passed := skipValue_written space value ends
      rw [if_neg (by decide)]
      split <;> rename_i found <;> rw [column] at found <;> cases found
      split <;> rename_i found <;> rw [passed] at found <;> cases found
      exact others draft
  | some result =>
    rw [put, Option.map_some, Option.map_eq_some_iff] at read
    obtain ⟨outcome, read, same⟩ := read
    obtain ⟨fault, rfl, rfl⟩ | ⟨filled, rfl, rfl⟩ := unplaced_cases same
    · split <;> rename_i found <;> rw [read] at found <;> cases found
      rfl
    · split <;> rename_i found <;> rw [read] at found <;> cases found
      exact others filled

theorem Member.cons {value : Tree → Bytes → Bytes → Prop} {m : String × Tree} {s t : Bytes}
    (h : Member value m s t) : ∃ r, s = ascii '"' :: r := by
  cases h
  exact ⟨_, rfl⟩

theorem Shape.Covers.of_cons {m : String × Tree} {members : List (String × Tree)}
    (h : shape.Covers (m :: members)) :
    (shape.strict = true ∨ m.1 ∈ shape.keys) ∧ shape.Covers members :=
  ⟨h.imp_right fun all => all m (List.mem_cons_self ..),
    h.imp_right fun all m h => all m (List.mem_cons_of_mem _ h)⟩

/-- The members behind a member are read one by one, up to the closing brace. -/
theorem readMembers_more {members : List (String × Tree)} {s t : Bytes}
    (h : More (Member Written) '\x7d' members s t) (draft : Draft shape.columns) :
    unplaced (readMembers shape false draft s) =
      ((shape.collect ms members draft).bind shape.conclude).map (·, t) := by
  induction h generalizing draft with
  | close space => exact readMembers_close false draft space
  | next comma space member more ih =>
    obtain ⟨r, rfl⟩ := member.cons
    exact readMembers_member ms (nextKey_next comma space) member
      (more.ends (ends_cons (by decide) _)) ih

/-- An object is read as the record that its members make up. -/
theorem read_object {members : List (String × Tree)} {r s t : Bytes}
    (space : Gap r (ascii '\x7b' :: s)) (h : Separated (Member Written) '\x7d' members s t) :
    unplaced (shape.read r) = (shape.gather ms members).map (·, t) := by
  have brace : shape.read r = readMembers shape true (Draft.empty shape.columns) s := by
    simp only [Shape.read, space.skipSpace_cons (show isSpace (ascii '\x7b') = false by decide),
      if_true]
  rw [brace]
  cases h with
  | none space => exact readMembers_close true _ space
  | some space member more =>
    obtain ⟨r, rfl⟩ := member.cons
    exact readMembers_member ms (nextKey_first space) member
      (more.ends (ends_cons (by decide) _)) (readMembers_more ms more)

/-- A text that is an object is read as the record that the members make up. -/
theorem verdict_object {members : List (String × Tree)} {s : Bytes}
    (h : Document (.object members) s) :
    verdict shape.read s = shape.gather ms members := by
  obtain ⟨before, written, after⟩ := h
  cases written with
  | object separated => exact verdict_of_unplaced (read_object ms before separated) after

theorem whole_object_eq_ok_iff {members : List (String × Tree)} {s : Bytes}
    (h : Document (.object members) s) {a : α} :
    whole shape.read s = .ok a ↔ shape.gather ms members = .ok a := by
  rw [← verdict_eq_ok_iff, verdict_object ms h]

end

/-! ## Lists of objects -/

section
variable {shape : Shape α} (ms : Meanings shape.columns)

theorem nextValue_close (first : Bool) {s t : Bytes} (h : Gap s (ascii ']' :: t)) :
    nextValue first s = .ok (.closed t) := by
  simp only [nextValue, h.skipSpace_cons (show isSpace (ascii ']') = false by decide), if_true]

theorem nextValue_first {v : Tree} {s t u : Bytes} (h : Gap s t) (written : Written v t u) :
    nextValue true s = .ok (.item t) := by
  obtain ⟨b, r, rfl, first⟩ := written.cons
  simp only [nextValue, h.skipSpace_cons first.isSpace, if_neg first.ne_mark.1, if_true]

theorem nextValue_next {v : Tree} {s t u w : Bytes} (h : Gap s (ascii ',' :: t)) (g : Gap t u)
    (written : Written v u w) : nextValue false s = .ok (.item u) := by
  obtain ⟨b, r, rfl, first⟩ := written.cons
  simp only [nextValue, h.skipSpace_cons (show isSpace (ascii ',') = false by decide),
    g.skipSpace_cons first.isSpace, if_neg first.ne_mark.1]
  rfl

theorem readRecords_close (done : List α) {s t : Bytes} (h : Gap s (ascii ']' :: t)) :
    readRecords shape done s = .ok (done.reverse, t) := by
  have next := nextValue_close done.isEmpty h
  rw [readRecords]
  split <;> rename_i found <;> rw [next] at found <;> cases found
  rfl

/-- What comes of a list is what comes of its first record and, if that is one, of the others. -/
theorem readRecords_record {done : List α} {members : List (String × Tree)}
    {others : List (List (String × Tree))} {r s t u : Bytes}
    (next : nextValue done.isEmpty r = .ok (.item s)) (h : Written (.object members) s t)
    (more : ∀ done : List α, done ≠ [] → unplaced (readRecords shape done t) =
      ((others.mapM (shape.gather ms)).map (done.reverse ++ ·)).map (·, u)) :
    unplaced (readRecords shape done r) =
      (((members :: others).mapM (shape.gather ms)).map (done.reverse ++ ·)).map (·, u) := by
  have read : unplaced (shape.read s) = (shape.gather ms members).map (·, t) := by
    cases h with
    | object separated => exact read_object ms .none separated
  rw [readRecords, List.mapM_cons]
  split <;> rename_i found <;> rw [next] at found <;> cases found
  obtain ⟨fault, failed, gathered⟩ | ⟨a, succeeded, gathered⟩ := unplaced_cases read
  · split <;> rename_i found <;> rw [failed] at found <;> cases found
    rw [gathered]
    rfl
  · split <;> rename_i found <;> rw [succeeded] at found <;> cases found
    rw [more (a :: done) (List.cons_ne_nil _ _), gathered, List.reverse_cons]
    change _ = Except.map _ (Except.map _ ((others.mapM (shape.gather ms)).bind _))
    cases others.mapM (shape.gather ms) with
    | error cause => rfl
    | ok as => exact congrArg (fun as => Except.ok (as, u)) (List.append_assoc ..)

theorem readRecords_more {lists : List (List (String × Tree))} {s t : Bytes}
    (h : More Written ']' (lists.map .object) s t)
    (done : List α) (nonempty : done ≠ []) :
    unplaced (readRecords shape done s) =
      ((lists.mapM (shape.gather ms)).map (done.reverse ++ ·)).map (·, t) := by
  generalize objects : lists.map Tree.object = items at h
  induction h generalizing lists done with
  | close space =>
    obtain rfl := List.map_eq_nil_iff.mp objects
    rw [readRecords_close done space]
    exact congrArg (fun as => Except.ok (as, _)) (List.append_nil _).symm
  | next comma space written _ ih =>
    obtain ⟨members, others, rfl, rfl, rfl⟩ := List.map_eq_cons_iff.mp objects
    -- A comma is asked for as soon as one record has been read.
    have behind : done.isEmpty = false := by
      cases done with
      | nil => exact absurd rfl nonempty
      | cons a done => rfl
    refine readRecords_record ms (behind ▸ nextValue_next comma space written) written
      fun done nonempty => ?_
    exact ih done nonempty rfl

theorem readList_bracket {r s : Bytes} (h : Gap r (ascii '[' :: s)) :
    shape.readList r = readRecords shape [] s := by
  simp only [Shape.readList, h.skipSpace_cons (show isSpace (ascii '[') = false by decide), if_true]

/-- A list of objects is read as the records that they make up, in their order. -/
theorem verdict_list {lists : List (List (String × Tree))} {s : Bytes}
    (h : Document (.list (lists.map .object)) s) :
    verdict shape.readList s = lists.mapM (shape.gather ms) := by
  obtain ⟨before, written, after⟩ := h
  cases written with
  | list separated =>
    refine verdict_of_unplaced ?_ after
    have unchanged : (lists.mapM (shape.gather ms)).map ([].reverse ++ ·) =
        lists.mapM (shape.gather ms) := by
      cases lists.mapM (shape.gather ms) <;> rfl
    rw [readList_bracket before, ← unchanged]
    generalize objects : lists.map Tree.object = items at separated
    cases separated with
    | none space =>
      obtain rfl := List.map_eq_nil_iff.mp objects
      rw [readRecords_close [] space]
      rfl
    | some space written more =>
      obtain ⟨members, others, rfl, rfl, rfl⟩ := List.map_eq_cons_iff.mp objects
      refine readRecords_record ms (nextValue_first space written) written
        fun done nonempty => ?_
      exact readRecords_more ms more done nonempty

end

/-! ## The values in a list or an object -/

section
variable {item : α → Bytes → Bytes → Prop} {close : Char} {xs : List α} {s t : Bytes}

theorem More.mem (h : More item close xs s t) : ∀ x ∈ xs, ∃ u v, item x u v := by
  induction h with
  | close => intro x mem; cases mem
  | next _ _ written _ ih => exact List.forall_mem_cons.mpr ⟨⟨_, _, written⟩, ih⟩

theorem Separated.mem (h : Separated item close xs s t) : ∀ x ∈ xs, ∃ u v, item x u v := by
  cases h with
  | none => intro x mem; cases mem
  | some _ written more => exact List.forall_mem_cons.mpr ⟨⟨_, _, written⟩, more.mem⟩

end

theorem Document.written {members : List (String × Tree)} {s : Bytes}
    (h : Document (.object members) s) : ∀ m ∈ members, ∃ u v, Written m.2 u v := by
  obtain ⟨-, written, -⟩ := h
  cases written with
  | object separated =>
    intro m mem
    obtain ⟨_, _, -, -, -, value⟩ := separated.mem m mem
    exact ⟨_, _, value⟩

theorem Document.items {items : List Tree} {s : Bytes} (h : Document (.list items) s) :
    ∀ x ∈ items, ∃ u v, Written x u v := by
  obtain ⟨-, written, -⟩ := h
  cases written with
  | list separated => exact separated.mem

end MetricLedger.Json
