/-!
# Natural numbers

Powers and sums of natural numbers as the core library computes them. Modules that compute with them
open this namespace, so that they mean the same wherever other instances are in sight.
-/

namespace MetricLedger.Natural

scoped instance (priority := 2000) natPow : Pow Nat Nat := instPowNat

scoped instance (priority := 2000) natZero : Zero Nat := ⟨0⟩

end MetricLedger.Natural
