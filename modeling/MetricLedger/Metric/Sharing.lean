import MetricLedger.Metric.Store

/-!
# Sharing a ledger

Several callers use one ledger at the same time, and their steps come in any order. Recording takes
two steps: the record is marked with a fresh identifier and the time, and then it is appended;
others may go on in between. Listing takes one step, so it shows the ledger of one moment. A
schedule says whose step is the next.
-/

namespace MetricLedger

/-- What a caller asks of a ledger. -/
inductive Call
  | create (m : Measurement)
  | named (name : String)
  | all
deriving DecidableEq, Repr

/-- What a record was marked with. -/
def Record.stamp (r : Record) : Stamp := ⟨r.id, r.createdAt⟩

@[simp] theorem Record.stamp_ofMeasurement (m : Measurement) (stamp : Stamp) :
    (Record.ofMeasurement m stamp).stamp = stamp := rfl

/-- What happens in one step of a call. -/
inductive Deed
  | marks (r : Record)
  | stores (r : Record)
  | finds (name : String) (rs : List Record)
  | lists (rs : List Record)
deriving DecidableEq, Repr

/-- A call and how far it has come. -/
inductive Caller
  | create (m : Measurement)
  /-- The record is marked, and not in the ledger yet. -/
  | holding (r : Record)
  | created (r : Record)
  | named (name : String)
  | found (name : String) (rs : List Record)
  | all
  | listed (rs : List Record)
deriving DecidableEq, Repr

/-- Before the first step. -/
def Call.begin : Call → Caller
  | .create m => .create m
  | .named name => .named name
  | .all => .all

def Call.isCreate : Call → Bool
  | .create _ => true
  | .named _ | .all => false

namespace Caller

def call : Caller → Call
  | .create m => .create m
  | .holding r | .created r => .create r.measurement
  | .named name | .found name _ => .named name
  | .all | .listed _ => .all

@[simp] theorem call_begin (c : Call) : c.begin.call = c := by cases c <;> rfl

/-- What has happened in the steps of a call so far. -/
def deeds : Caller → List Deed
  | .create _ | .named _ | .all => []
  | .holding r => [.marks r]
  | .created r => [.marks r, .stores r]
  | .found name rs => [.finds name rs]
  | .listed rs => [.lists rs]

/-- How many steps are left. -/
def left : Caller → Nat
  | .create _ => 2
  | .holding _ | .named _ | .all => 1
  | .created _ | .found .. | .listed _ => 0

theorem left_begin_le (c : Call) : c.begin.left ≤ 2 := by
  cases c with
  | create m => exact Nat.le_refl 2
  | named name | all => exact Nat.le_succ 1

/-- The record of a call, once it is marked. -/
def record? : Caller → Option Record
  | .holding r | .created r => some r
  | _ => none

/-- The record that a call was answered with. -/
def made? : Caller → Option Record
  | .created r => some r
  | _ => none

/-- The next step, if one is left. -/
def next? (stamp : Stamp) (l : Ledger) : Caller → Option (Deed × Caller)
  | .create m =>
    let r := Record.ofMeasurement m stamp
    some (.marks r, .holding r)
  | .holding r => some (.stores r, .created r)
  | .named name => some (.finds name (l.named name), .found name (l.named name))
  | .all => some (.lists l.records, .listed l.records)
  | .created _ | .found .. | .listed _ => none

end Caller

namespace Deed

/-- The record that a step marks. -/
def marked? : Deed → Option Record
  | .marks r => some r
  | _ => none

/-- The record that a step appends. -/
def stored? : Deed → Option Record
  | .stores r => some r
  | _ => none

/-- The ledger after a step. -/
def apply (l : Ledger) : Deed → Ledger
  | .stores r => l.append r
  | _ => l

/-- How many stamps a step uses up. -/
def draws : Deed → Nat
  | .marks _ => 1
  | _ => 0

/-- A step that lists records shows those of its name, or all, among the given ones. -/
def Shows (rs : List Record) : Deed → Prop
  | .finds name found => found = rs.filter (·.name == name)
  | .lists listed => listed = rs
  | .marks _ | .stores _ => True

theorem records_apply (l : Ledger) (d : Deed) :
    (d.apply l).records = l.records ++ d.stored?.toList := by
  cases d <;> simp [apply, stored?]

end Deed

/-- A step of one of the callers. -/
structure Event where
  caller : Nat
  deed : Deed
deriving DecidableEq, Repr

/-- A ledger, those who use it, how many stamps they have used up, and what they have done. -/
structure Sharing where
  ledger : Ledger
  callers : List Caller
  drawn : Nat := 0
  history : List Event := []

namespace Sharing

def start (l : Ledger) (calls : List Call) : Sharing :=
  { ledger := l, callers := calls.map Call.begin }

/-- The next step of a caller. Stamps are used in their order, each of them once. -/
def step (stamps : Nat → Stamp) (s : Sharing) (i : Nat) : Sharing :=
  match s.callers[i]?.bind (·.next? (stamps s.drawn) s.ledger) with
  | none => s
  | some (deed, caller) =>
    { ledger := deed.apply s.ledger
      callers := s.callers.set i caller
      drawn := s.drawn + deed.draws
      history := s.history ++ [⟨i, deed⟩] }

theorem step_of_next? {stamps : Nat → Stamp} {s : Sharing} {i : Nat} {c c' : Caller} {d : Deed}
    (here : s.callers[i]? = some c) (next : c.next? (stamps s.drawn) s.ledger = some (d, c')) :
    s.step stamps i =
      ⟨d.apply s.ledger, s.callers.set i c', s.drawn + d.draws, s.history ++ [⟨i, d⟩]⟩ := by
  rw [step, here, Option.bind_some, next]

/-- All steps of a schedule. -/
def run (stamps : Nat → Stamp) (s : Sharing) (schedule : List Nat) : Sharing :=
  schedule.foldl (step stamps) s

end Sharing

end MetricLedger
