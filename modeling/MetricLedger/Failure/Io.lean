import MetricLedger.System.Errno

/-!
# Input and output that failed
-/

namespace MetricLedger

inductive IoFault
  | system (errno : System.Errno)
  | other (text : String)
deriving DecidableEq, Repr

def IoFault.message : IoFault → String
  | .system errno => errno.message
  | .other text => text

end MetricLedger
