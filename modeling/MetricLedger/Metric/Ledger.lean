import MetricLedger.Metric.Record

/-!
# The ledger

Records in the order of their recording. A record is never changed or removed.
-/

namespace MetricLedger

structure Ledger where
  records : List Record
deriving Repr

namespace Ledger

def empty : Ledger := ⟨[]⟩

def size (l : Ledger) : Nat := l.records.length

def isEmpty (l : Ledger) : Bool := l.records.isEmpty

def append (l : Ledger) (r : Record) : Ledger := ⟨l.records ++ [r]⟩

/-- The records whose name is exactly the given one. -/
def named (l : Ledger) (name : String) : List Record := l.records.filter (·.name == name)

@[simp] theorem records_empty : empty.records = [] := rfl

@[simp] theorem records_append (l : Ledger) (r : Record) :
    (l.append r).records = l.records ++ [r] := rfl

@[simp] theorem size_append (l : Ledger) (r : Record) : (l.append r).size = l.size + 1 := by
  simp [size]

theorem mem_named {l : Ledger} {name : String} {r : Record} :
    r ∈ l.named name ↔ r ∈ l.records ∧ r.name = name := by
  simp [named]

theorem named_append (l : Ledger) (r : Record) (name : String) :
    (l.append r).named name = l.named name ++ if r.name = name then [r] else [] := by
  by_cases h : r.name = name <;> simp [named, h]

end Ledger

end MetricLedger
