import MetricLedger.Metric.Store
import MetricLedger.Sampling.Figures

/-!
# Recording samples

A recorder records every measurement of every sample in order, each under a stamp of its own. A
measurement that the store does not take is told and passed by.
-/

namespace MetricLedger.Sampling

/-- A measurement that was to be recorded, and what came of it. -/
structure Attempt where
  measurement : Measurement
  result : Except StoreFault Record

/-- Records measurements in order; `first` is the number of the first stamp. -/
def record (store : Store σ) (stamps : Nat → Stamp) (first : Nat) :
    List Measurement → σ → List Attempt × σ
  | [], s => ([], s)
  | m :: ms, s =>
    let (result, s) := store.create (stamps first) m s
    let (attempts, s) := record store stamps (first + 1) ms s
    (⟨m, result⟩ :: attempts, s)

/-- Records the valid readings of one batch after the other. -/
def recordBatches (store : Store σ) (stamps : Nat → Stamp) (first : Nat) :
    List (List Measurement) → σ → List (List Attempt) × σ
  | [], s => ([], s)
  | readings :: batches, s =>
    let (attempts, s) := record store stamps first (valid readings) s
    let (rest, s) := recordBatches store stamps (first + attempts.length) batches s
    (attempts :: rest, s)

/-- Every measurement is attempted once, in order. -/
@[simp] theorem measurement_record (store : Store σ) (stamps : Nat → Stamp) (first : Nat)
    (ms : List Measurement) (s : σ) :
    (record store stamps first ms s).1.map (·.measurement) = ms := by
  induction ms generalizing first s with
  | nil => rfl
  | cons m ms ih => simp [record, ih]

end MetricLedger.Sampling
