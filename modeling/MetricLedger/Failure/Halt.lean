/-!
# Halts

A computation that gives nothing has either failed, which its caller is told and can report, or the
program panics in the middle of it and nothing after it is done.
-/

namespace MetricLedger

inductive Halt (ε : Type)
  | failed (fault : ε)
  | panicked (text : String)
deriving DecidableEq, Repr

/-- A failure told in other words. -/
def Halt.map (f : ε → δ) : Halt ε → Halt δ
  | .failed fault => .failed (f fault)
  | .panicked text => .panicked text

end MetricLedger
