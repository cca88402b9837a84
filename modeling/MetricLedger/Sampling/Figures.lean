import MetricLedger.Metric.Measurement

/-!
# Figures of the host

What a sampler reads off the host, and the measurements that it makes of them: five of them, in a
fixed order. A measurement that is not valid is left out.
-/

namespace MetricLedger.Sampling

structure Figures where
  /-- The load of each processor, in percent. -/
  processors : List Double
  usedMemory : Nat
  totalMemory : Nat
  usedSwap : Nat
  /-- The load over the last minute. -/
  load : Double
  uptime : Nat
deriving Repr

namespace Figures

def cpuUsage : String := "cpu_usage"
def memoryUsage : String := "memory_usage"
def swapUsed : String := "swap_used_bytes"
def loadAverage : String := "load_average_1m"
def uptimeSeconds : String := "uptime_seconds"

/-- The mean of the loads; zero without processors. -/
def meanLoad (f : Figures) : Double :=
  if f.processors.isEmpty then .ofNat 0
  else (f.processors.foldl Double.add (.ofNat 0)).div (.ofNat f.processors.length)

/-- The share of the memory that is in use, in percent. -/
def memoryShare (f : Figures) : Double :=
  if f.totalMemory = 0 then .ofNat 0
  else ((Double.ofNat f.usedMemory).div (.ofNat f.totalMemory)).mul (.ofNat 100)

/-- The readings, valid or not. -/
def readings (f : Figures) : List Measurement :=
  [⟨cpuUsage, "gauge", f.meanLoad⟩, ⟨memoryUsage, "gauge", f.memoryShare⟩,
    ⟨swapUsed, "gauge", .ofNat f.usedSwap⟩, ⟨loadAverage, "gauge", f.load⟩,
    ⟨uptimeSeconds, "counter", .ofNat f.uptime⟩]

end Figures

/-- The valid ones among readings, unchanged and in order. -/
def valid (readings : List Measurement) : List Measurement :=
  readings.filterMap fun m => m.check.toOption

/-- One sample of the host. -/
def sample (f : Figures) : List Measurement := valid f.readings

theorem mem_valid {readings : List Measurement} {m : Measurement} :
    m ∈ valid readings ↔ m ∈ readings ∧ m.Valid := by
  simp only [valid, List.mem_filterMap]
  constructor
  · rintro ⟨r, mem, h⟩
    cases checked : r.check with
    | error f => simp [checked, Except.toOption] at h
    | ok n =>
      obtain ⟨rfl, ok⟩ := Measurement.check_eq_ok_iff.1 checked
      simp only [checked, Except.toOption, Option.some.injEq] at h
      exact h ▸ ⟨mem, ok⟩
  · rintro ⟨mem, ok⟩
    exact ⟨m, mem, by simp [Measurement.check_eq_ok_iff.2 ⟨rfl, ok⟩, Except.toOption]⟩

end MetricLedger.Sampling
