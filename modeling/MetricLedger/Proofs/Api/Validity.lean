import MetricLedger.Proofs.Api.Recall
import MetricLedger.Proofs.Api.Recording
import MetricLedger.Sampling.Recorder

/-!
# Valid ledgers

Records come into the ledger from requests and from samples of the host, in any order. Both ways
only valid measurements are recorded, so the name of every record can be asked for, and asking for
one name after the other finds each record once.
-/

namespace MetricLedger

/-! ## Ledgers -/

namespace Ledger

/-- All records hold valid measurements. -/
def IsValid (l : Ledger) : Prop := ∀ r ∈ l.records, r.measurement.Valid

theorem isValid_empty : empty.IsValid := by simp [IsValid]

theorem IsValid.append {l : Ledger} (h : l.IsValid) {m : Measurement} (valid : m.Valid)
    (stamp : Stamp) : (l.append (Record.ofMeasurement m stamp)).IsValid := by
  intro r mem
  rcases List.mem_append.mp mem with old | new
  · exact h r old
  · rw [List.mem_singleton.mp new]
    exact valid

/-- The records that have not a given name. -/
def without (l : Ledger) (name : String) : Ledger := ⟨l.records.filter (·.name != name)⟩

theorem named_without {l : Ledger} {name other : String} (h : other ≠ name) :
    (l.without name).named other = l.named other := by
  simp only [without, named, List.filter_filter]
  apply List.filter_congr
  intro r _
  grind

/-- The records of distinct names are all records, each of them once. -/
theorem flatMap_named_perm {names : List String} (distinct : names.Nodup) {l : Ledger}
    (covered : ∀ r ∈ l.records, r.name ∈ names) : (names.flatMap l.named).Perm l.records := by
  induction names generalizing l with
  | nil =>
    have none : l.records = [] := List.eq_nil_iff_forall_not_mem.mpr fun r mem => by
      cases covered r mem
    rw [none]
    exact .nil
  | cons name names ih =>
    -- The records of the first name are taken out, and the other names share what is left.
    obtain ⟨fresh, distinct⟩ := List.nodup_cons.mp distinct
    have others : names.flatMap l.named = names.flatMap (l.without name).named := by
      apply List.flatMap_congr
      intro other mem
      have differs : other ≠ name := fun same => fresh (same ▸ mem)
      exact (named_without differs).symm
    have rest : (names.flatMap (l.without name).named).Perm (l.without name).records := by
      refine ih distinct fun r mem => ?_
      simp only [without, List.mem_filter, bne_iff_ne] at mem
      exact (List.mem_cons.mp (covered r mem.1)).resolve_left mem.2
    rw [List.flatMap_cons, others]
    refine (rest.append_left _).trans ?_
    exact List.filter_append_perm (·.name == name) l.records

end Ledger

/-! ## What changes the ledger -/

namespace Api

theorem valid_of_measurementOf {body : Http.Body} {m : Measurement}
    (h : measurementOf body = .ok m) : m.Valid := by
  unfold measurementOf at h
  split at h
  · cases h
  · cases h
  · split at h
    · cases h
    · obtain ⟨rfl, valid⟩ := Measurement.check_eq_ok_iff.mp (mapError_eq_ok_iff.mp h)
      exact valid

theorem isValid_answer (cors : Bool) (stamp : Stamp) (r : Http.Request) {l : Ledger}
    (h : l.IsValid) : (answer cors Store.inMemory stamp r l).2.IsValid := by
  rw [answer_state]
  by_cases created : route cors r.method r.target = .create
  · rw [created]
    rcases create_inMemory stamp r.body l with ⟨-, same⟩ | ⟨m, read, made⟩
    · rwa [answerRoute, same]
    · rw [answerRoute, made]
      exact h.append (valid_of_measurementOf read) stamp
  · rwa [(answerRoute_inMemory stamp r l created).2]

theorem isValid_record (stamps : Nat → Stamp) (first : Nat) {ms : List Measurement}
    (valid : ∀ m ∈ ms, m.Valid) {l : Ledger} (h : l.IsValid) :
    (Sampling.record Store.inMemory stamps first ms l).2.IsValid := by
  induction ms generalizing first l with
  | nil => exact h
  | cons m ms ih =>
    obtain ⟨here, others⟩ := List.forall_mem_cons.mp valid
    exact ih (first + 1) others (h.append here (stamps first))

/-- What can happen to a ledger: a request, or a batch of readings that are to be recorded, each
under a stamp of its own. A batch that requests come in between is several batches. -/
inductive Event
  | request (stamp : Stamp) (r : Http.Request)
  | batch (stamps : Nat → Stamp) (first : Nat) (readings : List Measurement)

/-- The ledger after an event. -/
def Event.apply (cors : Bool) (l : Ledger) : Event → Ledger
  | .request stamp r => (answer cors Store.inMemory stamp r l).2
  | .batch stamps first readings =>
    (Sampling.record Store.inMemory stamps first (Sampling.valid readings) l).2

/-- The ledger after events, with no records before them. -/
def after (cors : Bool) (events : List Event) : Ledger :=
  events.foldl (Event.apply cors) .empty

theorem isValid_apply (cors : Bool) {l : Ledger} (h : l.IsValid) (e : Event) :
    (e.apply cors l).IsValid := by
  cases e with
  | request stamp r => exact isValid_answer cors stamp r h
  | batch stamps first readings =>
    exact isValid_record stamps first (fun m mem => (Sampling.mem_valid.mp mem).2) h

theorem isValid_foldl (cors : Bool) (events : List Event) {l : Ledger} (h : l.IsValid) :
    (events.foldl (Event.apply cors) l).IsValid := by
  induction events generalizing l with
  | nil => exact h
  | cons e events ih => exact ih (isValid_apply cors h e)

theorem isValid_after (cors : Bool) (events : List Event) : (after cors events).IsValid :=
  isValid_foldl cors events Ledger.isValid_empty

/-! ## What is found in the ledger -/

theorem exists_shown {s : String} (h : Text.isBlank s = false) :
    ∃ c ∈ s.toList, Text.isWhite c = false := by
  by_contra blank
  have white : Text.isBlank s = true := by
    rw [Text.isBlank_iff]
    grind
  rw [h] at white
  cases white

/-- After any requests and any batches of readings, whatever they are, all records have a name and a
type that are not blank and a finite value. So a record that is listed with all others is also
listed under its name, however that is escaped, and the lists for the names that there are hold each
record once. -/
theorem listed_by_their_names (cors : Bool) (events : List Event) :
    let l := after cors events
    let respond (stamp : Stamp) (r : Http.Request) := (answer cors Store.inMemory stamp r l).1
    (∀ r ∈ l.records, (∃ c ∈ r.name.toList, Text.isWhite c = false) ∧
      (∃ c ∈ r.type.toList, Text.isWhite c = false) ∧ r.value.isFinite = true) ∧
    (∀ query, Http.Form.Query (query.getD []) [] → ∀ stamp headers body,
      Lists (respond stamp (listing query headers body)) l.records) ∧
    (∀ r ∈ l.records, r ∈ l.named r.name ∧ (∃ raw, Http.Escaped raw (Bytes.ofString r.name)) ∧
      ∀ raw, Http.Escaped raw (Bytes.ofString r.name) →
        let query := Http.singleQuery "metric_name" raw
        ((search raw).length ≤ 65534 → Http.Target.parse (search raw) = .ok ⟨path, some query⟩) ∧
        ∀ stamp headers body,
          Lists (respond stamp (listing (some query) headers body)) (l.named r.name)) ∧
    ∀ names : List String, names.Nodup → (∀ n, n ∈ names ↔ ∃ r ∈ l.records, r.name = n) →
      (names.flatMap l.named).Perm l.records := by
  intro l respond
  have valid : l.IsValid := isValid_after cors events
  refine ⟨?_, ?_, ?_, ?_⟩
  · intro r mem
    obtain ⟨name, type, value⟩ := valid r mem
    exact ⟨exists_shown name, exists_shown type, value⟩
  · intro query bare stamp headers body
    obtain ⟨status, text⟩ := answer_listing cors Store.inMemory stamp query headers body l
    rw [list_all (selection_of_none bare rfl)] at status text
    exact lists_of_body status text
  · intro r mem
    refine ⟨Ledger.mem_named.mpr ⟨mem, rfl⟩, Http.exists_escaped _, ?_⟩
    intro raw escaped query
    refine ⟨parse_search escaped, ?_⟩
    intro stamp headers body
    exact lists_search escaped (valid r mem).name cors stamp headers body l
  · intro names distinct stored
    exact Ledger.flatMap_named_perm distinct fun r mem => (stored r.name).mpr ⟨r, mem, rfl⟩

/-- Of two readings one has a blank name; the other is recorded, and found by its name. -/
theorem reading_is_found : ∃ r : Record, r.name = "a b" ∧
    Lists (answer true Store.inMemory ⟨⟨1⟩, ⟨0, 0, by decide⟩⟩
      (listing (some (Http.singleQuery "metric_name" (Bytes.ofString "a%20b"))) [] (.ofBytes []))
      (after true [.batch (fun _ => ⟨⟨2⟩, ⟨0, 0, by decide⟩⟩) 0
        [⟨" ", "gauge", .ofNat 1⟩, ⟨"a b", "gauge", .ofNat 2⟩]])).1 [r] := by
  have escaped : Http.Escaped (Bytes.ofString "a%20b") (Bytes.ofString "a b") :=
    .plain (b := ascii 'a') (by decide) (.escape (c := ascii '2') (d := ascii '0') rfl rfl
      (.plain (b := ascii 'b') (by decide) .nil))
  obtain ⟨-, -, found, -⟩ := listed_by_their_names true
    [.batch (fun _ => ⟨⟨2⟩, ⟨0, 0, by decide⟩⟩) 0
      [⟨" ", "gauge", .ofNat 1⟩, ⟨"a b", "gauge", .ofNat 2⟩]]
  obtain ⟨-, -, all⟩ := found
    (.ofMeasurement ⟨"a b", "gauge", .ofNat 2⟩ ⟨⟨2⟩, ⟨0, 0, by decide⟩⟩) (by decide)
  obtain ⟨-, lists⟩ := all _ escaped
  exact ⟨_, rfl, lists _ _ _⟩

end Api

end MetricLedger
