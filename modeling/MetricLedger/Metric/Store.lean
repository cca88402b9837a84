import MetricLedger.Failure.Store
import MetricLedger.Metric.Ledger

/-!
# Stores

What the service needs of a store, whatever keeps the records: recording a measurement under a
stamp, and the records of one name or all of them, oldest first. Any of these may come to nothing,
for a fault of the store unless it is said otherwise. The ledger is the store that never fails.
-/

namespace MetricLedger

/-- A store in a state of type `σ`; `ε` tells why a call comes to nothing. -/
structure Store (σ : Type) (ε : Type := StoreFault) where
  create : Stamp → Measurement → σ → Except ε Record × σ
  named : String → σ → Except ε (List Record) × σ
  all : σ → Except ε (List Record) × σ

namespace Store

def inMemory : Store Ledger where
  create stamp m l :=
    let r := Record.ofMeasurement m stamp
    (.ok r, l.append r)
  named name l := (.ok (l.named name), l)
  all l := (.ok l.records, l)

/-- A store whose every call fails in the same way and changes nothing. -/
def failing (fault : StoreFault) : Store σ where
  create _ _ s := (.error fault, s)
  named _ s := (.error fault, s)
  all s := (.error fault, s)

end Store

end MetricLedger
