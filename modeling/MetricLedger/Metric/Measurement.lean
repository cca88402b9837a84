import MetricLedger.Number.Double
import MetricLedger.Text.Blank

/-!
# Measurements

A measurement has a name, a type and a value, and is not stored yet. A valid one has a name and a
type that are not blank and a finite value; neither text is changed.
-/

namespace MetricLedger

structure Measurement where
  name : String
  type : String
  value : Double
deriving DecidableEq, Repr

namespace Measurement

/-- Why a measurement is not valid. -/
inductive Flaw
  | blankName
  | blankType
  | notFinite
deriving DecidableEq, Repr

def Flaw.message : Flaw → String
  | .blankName => "metric_name must not be empty"
  | .blankType => "metric_type must not be empty"
  | .notFinite => "value must be a finite number"

structure Valid (m : Measurement) : Prop where
  name : Text.isBlank m.name = false
  type : Text.isBlank m.type = false
  value : m.value.isFinite = true

/-- The measurement itself if it is valid, otherwise its first flaw. -/
def check (m : Measurement) : Except Flaw Measurement :=
  if Text.isBlank m.name then .error .blankName
  else if Text.isBlank m.type then .error .blankType
  else if m.value.isFinite then .ok m
  else .error .notFinite

theorem check_eq_ok_iff {m n : Measurement} : m.check = .ok n ↔ n = m ∧ m.Valid := by
  unfold check
  constructor
  · intro h
    split at h
    · simp at h
    · split at h
      · simp at h
      · split at h
        · simp_all
          exact ⟨by simp_all, by simp_all, by simp_all⟩
        · simp at h
  · rintro ⟨rfl, name, type, value⟩
    simp [name, type, value]

end Measurement

end MetricLedger
