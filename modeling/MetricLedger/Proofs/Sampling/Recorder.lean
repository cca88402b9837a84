import MetricLedger.Sampling.Recorder

/-!
# Recording goes on

A recorder asks its store to record every valid reading of every batch, once and in order, and goes
on whatever comes of it. So the ledger gets a record for each reading whose call does not fail, and
how the readings were cut into batches makes no difference.
-/

namespace MetricLedger

instance (m : Measurement) : Decidable m.Valid :=
  decidable_of_iff
    (Text.isBlank m.name = false ∧ Text.isBlank m.type = false ∧ m.value.isFinite = true)
    ⟨fun ⟨name, type, value⟩ => ⟨name, type, value⟩, fun ⟨name, type, value⟩ => ⟨name, type, value⟩⟩

/-- The state of a store, and what the store was asked to record so far. -/
structure Watched (σ : Type) where
  state : σ
  asked : List Measurement := []

/-- A store some of whose calls to record fail before they come to it. They are counted from zero,
and `outages` says which of them fail, and how. -/
def Store.interrupted (outages : Nat → Option StoreFault) (store : Store σ) :
    Store (Watched σ) where
  create stamp m s :=
    match outages s.asked.length with
    | some fault => (.error fault, ⟨s.state, s.asked ++ [m]⟩)
    | none =>
      let (result, after) := store.create stamp m s.state
      (result, ⟨after, s.asked ++ [m]⟩)
  named name s :=
    let (found, after) := store.named name s.state
    (found, { s with state := after })
  all s :=
    let (found, after) := store.all s.state
    (found, { s with state := after })

theorem Store.create_interrupted (outages : Nat → Option StoreFault) (store : Store σ)
    (stamp : Stamp) (m : Measurement) (s : Watched σ) :
    (store.interrupted outages).create stamp m s =
      match outages s.asked.length with
      | some fault => (.error fault, ⟨s.state, s.asked ++ [m]⟩)
      | none =>
        let made := store.create stamp m s.state
        (made.1, ⟨made.2, s.asked ++ [m]⟩) := rfl

namespace Sampling

/-! ## Readings -/

theorem valid_eq_filter (readings : List Measurement) :
    valid readings = readings.filter (·.Valid) := by
  have kept : (fun m : Measurement => m.check.toOption) = Option.guard (·.Valid) := by
    funext m
    by_cases good : m.Valid
    · rw [Measurement.check_eq_ok_iff.mpr ⟨rfl, good⟩]
      simp [Option.guard, good, Except.toOption]
    · cases checked : m.check with
      | error flaw => simp [Option.guard, good, Except.toOption]
      | ok n => exact absurd (Measurement.check_eq_ok_iff.mp checked).2 good
  rw [valid, kept, List.filterMap_eq_filter]

theorem flatMap_valid (batches : List (List Measurement)) :
    batches.flatMap valid = batches.flatten.filter (·.Valid) := by
  rw [List.filter_flatten, List.flatMap_def]
  exact congrArg List.flatten (List.map_congr_left fun readings _ => valid_eq_filter readings)

/-! ## Recording in batches -/

section
variable (store : Store σ) (stamps : Nat → Stamp)

theorem record_cons (first : Nat) (m : Measurement) (ms : List Measurement) (s : σ) :
    record store stamps first (m :: ms) s =
      let made := store.create (stamps first) m s
      let later := record store stamps (first + 1) ms made.2
      (⟨m, made.1⟩ :: later.1, later.2) := rfl

theorem recordBatches_cons (first : Nat) (readings : List Measurement)
    (batches : List (List Measurement)) (s : σ) :
    recordBatches store stamps first (readings :: batches) s =
      let made := record store stamps first (valid readings) s
      let later := recordBatches store stamps (first + made.1.length) batches made.2
      (made.1 :: later.1, later.2) := rfl

theorem record_append (first : Nat) (ms ns : List Measurement) (s : σ) :
    record store stamps first (ms ++ ns) s =
      let made := record store stamps first ms s
      let later := record store stamps (first + made.1.length) ns made.2
      (made.1 ++ later.1, later.2) := by
  induction ms generalizing first s with
  | nil => rfl
  | cons m ms ih =>
    simp only [List.cons_append, record_cons, ih, List.length_cons, Nat.add_assoc, Nat.add_comm 1]

/-- What is recorded batch after batch is recorded as if there were only one. -/
theorem recordBatches_eq (first : Nat) (batches : List (List Measurement)) (s : σ) :
    record store stamps first (batches.flatMap valid) s =
      let made := recordBatches store stamps first batches s
      (made.1.flatten, made.2) := by
  induction batches generalizing first s with
  | nil => rfl
  | cons readings batches ih =>
    simp only [List.flatMap_cons, record_append, ih, recordBatches_cons, List.flatten_cons]

/-- Every valid reading of each batch is attempted. -/
theorem measurement_recordBatches (first : Nat) (batches : List (List Measurement)) (s : σ) :
    (recordBatches store stamps first batches s).1.map (·.map (·.measurement)) =
      batches.map valid := by
  induction batches generalizing first s with
  | nil => rfl
  | cons readings batches ih => simp [recordBatches_cons, ih]

end

/-! ## Calls that fail -/

/-- What comes of a call to record in the ledger. -/
def outcome (outages : Nat → Option StoreFault) (stamps : Nat → Stamp) (m : Measurement) (n : Nat) :
    Except StoreFault Record :=
  match outages n with
  | some fault => .error fault
  | none => .ok (Record.ofMeasurement m (stamps n))

section
variable (outages : Nat → Option StoreFault) (stamps : Nat → Stamp)

/-- The store is asked to record all that is attempted, and nothing else. -/
theorem asked_record (store : Store σ) (first : Nat) (ms : List Measurement) (s : Watched σ) :
    (record (store.interrupted outages) stamps first ms s).2.asked = s.asked ++ ms := by
  induction ms generalizing first s with
  | nil => simp [record]
  | cons m ms ih =>
    have once : ((store.interrupted outages).create (stamps first) m s).2.asked =
        s.asked ++ [m] := by
      rw [Store.create_interrupted]
      split <;> rfl
    rw [record_cons, ih, once, List.append_assoc, List.singleton_append]

/-- One call to record in the ledger. -/
theorem create_ledger (m : Measurement) (s : Watched Ledger) :
    (Store.inMemory.interrupted outages).create (stamps s.asked.length) m s =
      let result := outcome outages stamps m s.asked.length
      (result, ⟨⟨s.state.records ++ result.toOption.toList⟩, s.asked ++ [m]⟩) := by
  rw [Store.create_interrupted, outcome]
  cases outages s.asked.length with
  | none => rfl
  | some fault => simp [Except.toOption]

/-- What comes of each attempt, and what the ledger gets of it. -/
theorem record_ledger (ms : List Measurement) (s : Watched Ledger) :
    let results := (ms.zipIdx s.asked.length).map fun (m, n) => outcome outages stamps m n
    let made := record (Store.inMemory.interrupted outages) stamps s.asked.length ms s
    made.1.map (·.result) = results ∧
      made.2.state.records = s.state.records ++ results.filterMap (·.toOption) := by
  induction ms generalizing s with
  | nil => simp [record]
  | cons m ms ih =>
    have later := ih ((Store.inMemory.interrupted outages).create (stamps s.asked.length) m s).2
    simp only [create_ledger, List.length_append, List.length_singleton] at later
    obtain ⟨results, records⟩ := later
    simp only [record_cons, create_ledger, List.map_cons, List.zipIdx_cons, results, records]
    refine ⟨trivial, ?_⟩
    cases outcome outages stamps m s.asked.length <;> simp [Except.toOption]

/-- Whatever store there is and whichever calls to it fail, the recorder asks it to record the valid
readings of all batches, each of them once and in order, and no others; and it attempts those of
each batch. Of the ledger, each call gets a record unless it fails, and at the end the ledger holds
its former records and then those, in the order of the readings. -/
theorem valid_readings_recorded (batches : List (List Measurement)) (l : Ledger) :
    let readings := batches.flatten.filter (·.Valid)
    (∀ (σ : Type) (store : Store σ) (s : σ),
      let made := recordBatches (store.interrupted outages) stamps 0 batches ⟨s, []⟩
      made.2.asked = readings ∧
      made.1.map (·.map (·.measurement)) = batches.map (·.filter (·.Valid))) ∧
    let made := recordBatches (Store.inMemory.interrupted outages) stamps 0 batches ⟨l, []⟩
    let results := readings.zipIdx.map fun (m, n) => outcome outages stamps m n
    made.1.flatten.map (·.result) = results ∧
    made.2.state.records = l.records ++ results.filterMap (·.toOption) := by
  intro readings
  have whole {σ : Type} (store : Store σ) (s : σ) :
      record (store.interrupted outages) stamps 0 readings ⟨s, []⟩ =
        let made := recordBatches (store.interrupted outages) stamps 0 batches ⟨s, []⟩
        (made.1.flatten, made.2) := by
    rw [← recordBatches_eq, flatMap_valid]
  refine ⟨fun σ store s => ⟨?_, ?_⟩, ?_⟩
  · have asked := asked_record outages stamps store 0 readings ⟨s, []⟩
    rwa [whole, List.nil_append] at asked
  · rw [measurement_recordBatches]
    exact List.map_congr_left fun readings _ => valid_eq_filter readings
  · have told := record_ledger outages stamps readings ⟨l, []⟩
    rwa [List.length_nil, whole] at told

end

end Sampling

end MetricLedger
