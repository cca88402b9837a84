import MetricLedger.Proofs.Json.Object

/-!
# Objects that hold a record

The order of members plays no part in whether an object holds a record: its members must be, in some
order, the fields of the record, none of them twice.
-/

namespace MetricLedger.Json

/-- The members that a draft is filled from, in the order of its fields. -/
def Fills : (cs : List Column) → Meanings cs → Draft cs → List (String × Tree) → Prop
  | [], (), (), members => members = []
  | _ :: cs, (_, ms), (none, draft), members => Fills cs ms draft members
  | c :: cs, (m, ms), (some x, draft), members =>
    ∃ v others, members = (c.name, v) :: others ∧ m.of v = .ok x ∧ Fills cs ms draft others

/-- Members each of which fills a field. -/
inductive Puts {cs : List Column} (ms : Meanings cs) :
    Draft cs → List (String × Tree) → Draft cs → Prop
  | nil {draft : Draft cs} : Puts ms draft [] draft
  | cons {d e f : Draft cs} {key : String} {v : Tree} {members : List (String × Tree)} :
      Draft.put? key v cs ms d = some (.ok e) → Puts ms e members f →
      Puts ms d ((key, v) :: members) f

/-! ## One field -/

section
variable {c : Column} {cs : List Column} {m : @Meaning c.type c.scalar} {ms : Meanings cs}
  {key : String} {v : Tree} {value other : Option c.type} {draft filled : Draft cs}

theorem put?_here :
    Draft.put? c.name v (c :: cs) (m, ms) (value, draft) = some (.ok (other, filled)) ↔
      value = none ∧ (∃ x, m.of v = .ok x ∧ other = some x) ∧ filled = draft := by
  simp only [Draft.put?, if_true, Option.some.injEq]
  cases value with
  | some x =>
    constructor
    · intro h; cases h
    · rintro ⟨⟨⟩, -⟩
  | none =>
    cases meant : m.of v with
    | error cause =>
      constructor
      · intro h; cases h
      · rintro ⟨-, ⟨x, ⟨⟩, -⟩, -⟩
    | ok x =>
      constructor
      · intro h; cases h; exact ⟨rfl, ⟨x, rfl, rfl⟩, rfl⟩
      · rintro ⟨-, ⟨x, ⟨⟩, rfl⟩, rfl⟩; rfl

theorem put?_past (h : key ≠ c.name) :
    Draft.put? key v (c :: cs) (m, ms) (value, draft) = some (.ok (other, filled)) ↔
      other = value ∧ Draft.put? key v cs ms draft = some (.ok filled) := by
  simp only [Draft.put?, if_neg h]
  rcases Draft.put? key v cs ms draft with _ | _ | d
  · constructor
    · intro h; cases h
    · rintro ⟨-, ⟨⟩⟩
  · constructor
    · intro h; cases h
    · rintro ⟨-, ⟨⟩⟩
  · constructor
    · intro h; cases h; exact ⟨rfl, rfl⟩
    · rintro ⟨rfl, ⟨⟩⟩; rfl

end

section
variable {cs : List Column} {ms : Meanings cs} {d e f : Draft cs}
  {before fields members others : List (String × Tree)}

theorem fills_empty (ms : Meanings cs) : Fills cs ms (Draft.empty cs) [] := by
  induction cs with
  | nil => rfl
  | cons c cs ih => exact ih ms.2

theorem Fills.put {key : String} {v : Tree} (h : Fills cs ms d fields)
    (put : Draft.put? key v cs ms d = some (.ok e)) :
    ∃ filled, Fills cs ms e filled ∧ filled.Perm ((key, v) :: fields) := by
  induction cs generalizing fields with
  | nil => cases put
  | cons c cs ih =>
    obtain ⟨m, ms⟩ := ms
    obtain ⟨value, d⟩ := d
    obtain ⟨other, e⟩ := e
    by_cases same : key = c.name
    · subst same
      obtain ⟨rfl, ⟨x, meant, rfl⟩, rfl⟩ := put?_here.mp put
      exact ⟨_, ⟨v, fields, rfl, meant, h⟩, .refl _⟩
    · obtain ⟨rfl, inner⟩ := (put?_past same).mp put
      cases other with
      | none => exact ih h inner
      | some x =>
        obtain ⟨w, rest, rfl, meant, h⟩ := h
        obtain ⟨filled, fills, perm⟩ := ih h inner
        exact ⟨_, ⟨w, filled, rfl, meant, fills⟩, (perm.cons _).trans (.swap ..)⟩

/-- What members fill is what was filled before and the members themselves. -/
theorem Puts.fills (h : Puts ms d members e) (fills : Fills cs ms d before) :
    ∃ after, Fills cs ms e after ∧ after.Perm (before ++ members) := by
  induction h generalizing before with
  | nil => exact ⟨before, fills, by rw [List.append_nil]⟩
  | cons put _ ih =>
    obtain ⟨filled, fills, perm⟩ := fills.put put
    obtain ⟨after, fills, perm'⟩ := ih fills
    exact ⟨after, fills, perm'.trans ((perm.append_right _).trans List.perm_middle.symm)⟩

/-! ## Order -/

theorem put?_comm {key key' : String} {v v' : Tree}
    (first : Draft.put? key v cs ms d = some (.ok e))
    (second : Draft.put? key' v' cs ms e = some (.ok f)) :
    ∃ e', Draft.put? key' v' cs ms d = some (.ok e') ∧
      Draft.put? key v cs ms e' = some (.ok f) := by
  induction cs with
  | nil => cases first
  | cons c cs ih =>
    obtain ⟨m, ms⟩ := ms
    obtain ⟨x, d⟩ := d
    obtain ⟨y, e⟩ := e
    obtain ⟨z, f⟩ := f
    by_cases here : key = c.name
    · subst here
      obtain ⟨rfl, ⟨x, meant, rfl⟩, rfl⟩ := put?_here.mp first
      by_cases here' : key' = c.name
      · -- The field has been filled by the first member.
        subst here'
        obtain ⟨⟨⟩, -⟩ := put?_here.mp second
      · obtain ⟨rfl, inner⟩ := (put?_past here').mp second
        exact ⟨(none, f), (put?_past here').mpr ⟨rfl, inner⟩,
          put?_here.mpr ⟨rfl, ⟨x, meant, rfl⟩, rfl⟩⟩
    · obtain ⟨rfl, inner⟩ := (put?_past here).mp first
      by_cases here' : key' = c.name
      · subst here'
        obtain ⟨rfl, ⟨x, meant, rfl⟩, rfl⟩ := put?_here.mp second
        exact ⟨(some x, d), put?_here.mpr ⟨rfl, ⟨x, meant, rfl⟩, rfl⟩,
          (put?_past here).mpr ⟨rfl, inner⟩⟩
      · obtain ⟨rfl, inner'⟩ := (put?_past here').mp second
        obtain ⟨e', first', second'⟩ := ih inner inner'
        exact ⟨(z, e'), (put?_past here').mpr ⟨rfl, first'⟩, (put?_past here).mpr ⟨rfl, second'⟩⟩

theorem Puts.perm (h : Puts ms d members e) (perm : members.Perm others) : Puts ms d others e := by
  induction perm generalizing d with
  | nil => exact h
  | cons member _ ih =>
    cases h with
    | cons put rest => exact .cons put (ih rest)
  | swap a b rest =>
    cases h with
    | cons first rest =>
      cases rest with
      | cons second rest =>
        obtain ⟨e', first', second'⟩ := put?_comm first second
        exact .cons first' (.cons second' rest)
  | trans _ _ ih ih' => exact ih' (ih h)

/-! ## All fields -/

theorem Fills.known (h : Fills cs ms d fields) : ∀ m ∈ fields, m.1 ∈ cs.map Column.name := by
  induction cs generalizing fields with
  | nil =>
    obtain rfl : fields = [] := h
    intro m mem
    cases mem
  | cons c cs ih =>
    obtain ⟨m, ms⟩ := ms
    obtain ⟨value, d⟩ := d
    cases value with
    | none => exact fun m mem => List.mem_cons_of_mem _ (ih h m mem)
    | some x =>
      obtain ⟨v, rest, rfl, -, h⟩ := h
      intro m mem
      rcases List.mem_cons.mp mem with rfl | mem
      · exact List.mem_cons_self ..
      · exact List.mem_cons_of_mem _ (ih h m mem)

theorem Puts.past {c : Column} {m : @Meaning c.type c.scalar} (h : Puts ms d members e)
    (value : Option c.type) (other : ∀ m ∈ members, m.1 ≠ c.name) :
    @Puts (c :: cs) (m, ms) (value, d) members (value, e) := by
  induction h with
  | nil => exact .nil
  | cons put _ ih =>
    exact .cons ((put?_past (other _ (List.mem_cons_self ..))).mpr ⟨rfl, put⟩)
      (ih fun m mem => other m (List.mem_cons_of_mem _ mem))

theorem Fills.puts (h : Fills cs ms d fields) (distinct : (cs.map Column.name).Nodup) :
    Puts ms (Draft.empty cs) fields d := by
  induction cs generalizing fields with
  | nil =>
    obtain rfl : fields = [] := h
    exact .nil
  | cons c cs ih =>
    obtain ⟨m, ms⟩ := ms
    obtain ⟨value, d⟩ := d
    obtain ⟨fresh, distinct⟩ := List.nodup_cons.mp distinct
    cases value with
    | none =>
      replace h : Fills cs ms d fields := h
      refine (ih h distinct).past none fun m mem same => fresh ?_
      exact same ▸ h.known m mem
    | some x =>
      obtain ⟨v, rest, rfl, meant, h⟩ := h
      refine .cons (put?_here.mpr ⟨rfl, ⟨x, meant, rfl⟩, rfl⟩) ?_
      refine (ih h distinct).past (some x) fun m mem same => fresh ?_
      exact same ▸ h.known m mem

end

/-- Members with distinct keys are settled by the keys and the order of them. -/
theorem eq_of_perm_of_keys {xs ys : List (String × Tree)} (perm : xs.Perm ys)
    (keys : xs.map Prod.fst = ys.map Prod.fst) (distinct : (xs.map Prod.fst).Nodup) : xs = ys := by
  induction xs generalizing ys with
  | nil => exact perm.nil_eq
  | cons x xs ih =>
    cases ys with
    | nil => exact absurd perm.eq_nil (List.cons_ne_nil _ _)
    | cons y ys =>
      obtain ⟨first, others⟩ := List.cons.inj keys
      obtain ⟨fresh, distinct⟩ := List.nodup_cons.mp distinct
      obtain rfl : x = y := by
        have among : x ∈ y :: ys := perm.mem_iff.mp (List.mem_cons_self ..)
        refine (List.mem_cons.mp among).resolve_right fun mem => fresh ?_
        exact others ▸ List.mem_map_of_mem mem
      rw [ih perm.cons_inv others distinct]

/-! ## Records -/

section
variable {shape : Shape α} {ms : Meanings shape.columns} {members : List (String × Tree)}

theorem collect_eq_ok_iff (covered : shape.Covers members) {d e : Draft shape.columns} :
    shape.collect ms members d = .ok e ↔ Puts ms d members e := by
  induction members generalizing d with
  | nil =>
    constructor
    · intro h; cases h; exact .nil
    · intro h; cases h; rfl
  | cons m members ih =>
    obtain ⟨key, v⟩ := m
    obtain ⟨known, others⟩ := covered.of_cons
    rw [Shape.collect]
    constructor
    · intro h
      split at h
      · exact .cons ‹_› ((ih others).mp h)
      · cases h
      · rw [if_pos (Shape.strict_of_put? known ‹_›)] at h
        cases h
    · intro h
      cases h with
      | cons put rest =>
        simp only [put]
        exact (ih others).mpr rest

/-- An object holds a record if its members are, in some order, the fields of one. -/
theorem gather_eq_ok_iff (covered : shape.Covers members) (distinct : shape.keys.Nodup) {a : α} :
    shape.gather ms members = .ok a ↔ ∃ draft fields, Fills shape.columns ms draft fields ∧
      members.Perm fields ∧ shape.conclude draft = .ok a := by
  constructor
  · intro h
    cases collected : shape.collect ms members (Draft.empty shape.columns) with
    | error cause => rw [Shape.gather, collected] at h; cases h
    | ok draft =>
      rw [Shape.gather, collected] at h
      have puts := (collect_eq_ok_iff covered).mp collected
      obtain ⟨fields, fills, perm⟩ := puts.fills (fills_empty ms)
      exact ⟨draft, fields, fills, perm.symm, h⟩
  · rintro ⟨draft, fields, fills, perm, concluded⟩
    have collected := (collect_eq_ok_iff covered).mpr ((fills.puts distinct).perm perm.symm)
    rw [Shape.gather, collected]
    exact concluded

/-! ## Members that are no fields -/

theorem put?_eq_none {key : String} {v : Tree} {cs : List Column} {ms : Meanings cs}
    {draft : Draft cs} (unknown : key ∉ cs.map Column.name) :
    Draft.put? key v cs ms draft = none := by
  induction cs with
  | nil => rfl
  | cons c cs ih =>
    obtain ⟨value, draft⟩ := draft
    obtain ⟨m, ms⟩ := ms
    have apart : key ≠ c.name := by grind
    have others : key ∉ cs.map Column.name := by grind
    simp only [Draft.put?, if_neg apart, ih others, Option.map_none]

theorem collect_filter (lax : shape.strict = false) {d : Draft shape.columns} :
    shape.collect ms (members.filter (·.1 ∈ shape.keys)) d = shape.collect ms members d := by
  induction members generalizing d with
  | nil => rfl
  | cons m members ih =>
    obtain ⟨key, v⟩ := m
    by_cases known : key ∈ shape.keys
    · rw [List.filter_cons_of_pos (by simpa using known), Shape.collect, Shape.collect]
      split
      · exact ih
      · rfl
      · rw [ih]
    · rw [List.filter_cons_of_neg (by simpa using known), ih, Shape.collect, put?_eq_none known]
      simp only [lax]
      rfl

/-- A shape that is not strict passes over members that are no fields. -/
theorem gather_filter (lax : shape.strict = false) :
    shape.gather ms (members.filter (·.1 ∈ shape.keys)) = shape.gather ms members :=
  congrArg (·.bind shape.conclude) (collect_filter lax)

/-- Fields may come in any order and among any other members. -/
theorem gather_among (lax : shape.strict = false) (distinct : shape.keys.Nodup)
    {draft : Draft shape.columns} {own others : List (String × Tree)} {a : α}
    (fills : Fills shape.columns ms draft own) (concluded : shape.conclude draft = .ok a)
    (unknown : ∀ m ∈ others, m.1 ∉ shape.keys) (perm : members.Perm (own ++ others)) :
    shape.gather ms members = .ok a := by
  have known : ∀ m ∈ own, m.1 ∈ shape.keys := fills.known
  have kept : (own ++ others).filter (·.1 ∈ shape.keys) = own := by
    rw [List.filter_append, List.filter_eq_self.mpr (by simpa using known),
      List.filter_eq_nil_iff.mpr (by simpa using unknown), List.append_nil]
  have ordered := perm.filter (·.1 ∈ shape.keys)
  rw [kept] at ordered
  have covered : shape.Covers (members.filter (·.1 ∈ shape.keys)) :=
    .inr fun m mem => known m (ordered.mem_iff.mp mem)
  rw [← gather_filter lax]
  exact (gather_eq_ok_iff covered distinct).mpr ⟨draft, own, fills, ordered, concluded⟩

end

end MetricLedger.Json
