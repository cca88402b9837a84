import MetricLedger.Proofs.Json.Fields
import MetricLedger.Proofs.Json.Printed
import MetricLedger.Proofs.Json.Scalar
import MetricLedger.Settings.Database
import MetricLedger.Settings.Listener

/-!
# Settings set up and read back

What is set about a listener step by step is what was set last. The settings of a listener and those
of a database are read back from their text as they were, whatever their texts contain and however
large their numbers are. Those of a listener are also read from any other text with the same
members: in another order, among members that mean nothing here, and without an interval if there
is none.
-/

namespace MetricLedger.Settings

open Json

/-! ## Setting up a listener -/

namespace Listener

/-- One thing set about a listener. -/
inductive Change
  | host (host : String)
  | port (port : UInt16)
  | cors (enableCors : Bool)
  | sampleInterval (interval : Option UInt64)

namespace Change

def apply (l : Listener) : Change → Listener
  | host h => l.withHost h
  | port p => l.withPort p
  | cors c => l.withCors c
  | sampleInterval i => l.withSampleInterval i

def host? : Change → Option String
  | host h => some h
  | _ => none

def port? : Change → Option UInt16
  | port p => some p
  | _ => none

def cors? : Change → Option Bool
  | cors c => some c
  | _ => none

def sampleInterval? : Change → Option (Option UInt64)
  | sampleInterval i => some i
  | _ => none

/-- The last of the values that changes give, or the usual one. -/
def last (given? : Change → Option α) (changes : List Change) (usual : α) : α :=
  (changes.filterMap given?).getLast?.getD usual

theorem last_cons (given? : Change → Option α) (c : Change) (changes : List Change) (usual : α) :
    last given? (c :: changes) usual = last given? changes ((given? c).getD usual) := by
  unfold last
  cases given : given? c with
  | none => rw [List.filterMap_cons_none given, Option.getD_none]
  | some a => rw [List.filterMap_cons_some given, List.getLast?_cons, Option.getD_some,
      Option.getD_some]

end Change

/-- Changes made one after the other. -/
def setUp (start : Listener) (changes : List Change) : Listener := changes.foldl Change.apply start

/-- Where every change keeps a field or gives it a new value, the field has what the last of these
values makes of it. -/
theorem setUp_field (field : Listener → β) (given? : Change → Option α) (f : α → β)
    (step : ∀ l c, field (Change.apply l c) = ((given? c).map f).getD (field l))
    {start : Listener} {usual : α} (first : field start = f usual) (changes : List Change) :
    field (start.setUp changes) = f (Change.last given? changes usual) := by
  induction changes generalizing start usual with
  | nil => exact first
  | cons c changes ih =>
    rw [Change.last_cons]
    apply ih
    rw [step]
    cases given? c with
    | none => exact first
    | some a => rfl

section
variable (start : Listener) (changes : List Change)

theorem host_setUp :
    (start.setUp changes).host = Change.last Change.host? changes start.host :=
  setUp_field Listener.host Change.host? id (fun _ c => by cases c <;> rfl) rfl changes

theorem port_setUp :
    (start.setUp changes).port = Change.last Change.port? changes start.port :=
  setUp_field Listener.port Change.port? id (fun _ c => by cases c <;> rfl) rfl changes

theorem enableCors_setUp :
    (start.setUp changes).enableCors = Change.last Change.cors? changes start.enableCors :=
  setUp_field Listener.enableCors Change.cors? id (fun _ c => by cases c <;> rfl) rfl changes

/-- An interval of zero counts as none, whenever it is given. -/
theorem sampleInterval_setUp (none : start.sampleInterval = none) :
    (start.setUp changes).sampleInterval =
      (Change.last Change.sampleInterval? changes .none).filter (0 < ·) :=
  setUp_field Listener.sampleInterval Change.sampleInterval? (Option.filter (0 < ·))
    (fun _ c => by cases c <;> rfl) none changes

end

variable (l : Listener)

/-! ## The members of a listener -/

/-- The members of a written listener. -/
def members : List (String × Tree) :=
  [("host", .text l.host), ("port", .natural l.port.toNat), ("enable_cors", .flag l.enableCors),
    ("sample_interval_ms", l.sampleInterval.elim .null fun n => .natural n.toNat)]

/-- Members that stand for a listener: its own in any order, among others that are no fields. If
there is no interval, its member may be missing. -/
def Told (members : List (String × Tree)) : Prop :=
  ∃ own others, (own = l.members ∨ l.sampleInterval = none ∧ own = l.members.dropLast) ∧
    (∀ m ∈ others, m.1 ∉ shape.keys) ∧ members.Perm (own ++ others)

def meanings : Meanings shape.columns :=
  (inferInstanceAs (Meaning String), inferInstanceAs (Meaning UInt16),
    inferInstanceAs (Meaning Bool), inferInstanceAs (Meaning (Option UInt64)), ())

theorem tree_toJson : l.toJson.tree = .object l.members := by
  obtain ⟨host, port, enableCors, _ | n⟩ := l <;> rfl

theorem told_members : l.Told l.members :=
  ⟨l.members, [], .inl rfl, nofun, by rw [List.append_nil]⟩

theorem meaning_sampleInterval (interval : Option UInt64) :
    Meaning.of (interval.elim .null fun n => .natural n.toNat) = .ok interval := by
  cases interval with
  | none => rfl
  | some n => exact congrArg (Except.map some) (Meaning.natural_uint64 n)

/-- Members that stand for a listener make it up. -/
theorem gather_told {told : List (String × Tree)} (h : l.Told told) :
    shape.gather meanings told = .ok l := by
  obtain ⟨own, others, same, unknown, perm⟩ := h
  have distinct : shape.keys.Nodup := by decide
  have port := Meaning.natural_uint16 l.port
  rcases same with rfl | ⟨absent, rfl⟩
  · have interval := meaning_sampleInterval l.sampleInterval
    have fills : Fills shape.columns meanings
        (some l.host, some l.port, some l.enableCors, some l.sampleInterval, ()) l.members :=
      ⟨_, _, rfl, rfl, _, _, rfl, port, _, _, rfl, rfl, _, _, rfl, interval, rfl⟩
    exact gather_among rfl distinct fills rfl unknown perm
  · have fills : Fills shape.columns meanings
        (some l.host, some l.port, some l.enableCors, none, ()) l.members.dropLast :=
      ⟨_, _, rfl, rfl, _, _, rfl, port, _, _, rfl, rfl, rfl⟩
    refine gather_among rfl distinct fills ?_ unknown perm
    obtain ⟨host, port, enableCors, interval⟩ := l
    cases absent
    rfl

theorem ofJson_told {told : List (String × Tree)} {s : Bytes} (h : l.Told told)
    (document : Document (.object told) s) : ofJson s = .ok l :=
  (whole_object_eq_ok_iff meanings document).mpr (l.gather_told h)

theorem ofJson_toJson : ofJson (Bytes.ofString l.toJson.compact) = .ok l := by
  have document := l.toJson.document_compact
  rw [tree_toJson] at document
  exact l.ofJson_told l.told_members document

end Listener

/-! ## The members of a database -/

namespace Database

variable (d : Database)

def members : List (String × Tree) :=
  [("database_url", .text d.url), ("max_connections", .natural d.maxConnections.toNat),
    ("acquire_timeout_secs", .natural d.acquireTimeout.toNat)]

def meanings : Meanings shape.columns :=
  (inferInstanceAs (Meaning String), inferInstanceAs (Meaning UInt32),
    inferInstanceAs (Meaning UInt64), ())

theorem gather_members : shape.gather meanings d.members = .ok d := by
  have connections := Meaning.natural_uint32 d.maxConnections
  have timeout := Meaning.natural_uint64 d.acquireTimeout
  have fills : Fills shape.columns meanings
      (some d.url, some d.maxConnections, some d.acquireTimeout, ()) d.members :=
    ⟨_, _, rfl, rfl, _, _, rfl, connections, _, _, rfl, timeout, rfl⟩
  have covered : shape.Covers d.members := .inr fills.known
  exact (gather_eq_ok_iff covered (by decide)).mpr ⟨_, _, fills, .refl _, rfl⟩

theorem ofJson_toJson : ofJson (Bytes.ofString d.toJson.compact) = .ok d := by
  have document : Document (.object d.members) (Bytes.ofString d.toJson.compact) :=
    d.toJson.document_compact
  exact (whole_object_eq_ok_iff meanings document).mpr d.gather_members

end Database

/-! ## Settings -/

namespace Listener

/-- Whatever is set about a listener in whatever order, each field has the value that was set last
or else the one from the start, and an interval is never zero. The listener is read back from its
text as it is, and so are the settings of any database from theirs; and it is read from every text
whose members stand for it. -/
theorem setUp_reread {start : Listener} (fresh : start = {} ∨ ∃ host port, start = { host, port })
    (changes : List Change) (d : Database) :
    let l := start.setUp changes
    (l.host = Change.last Change.host? changes start.host ∧
      l.port = Change.last Change.port? changes start.port ∧
      l.enableCors = Change.last Change.cors? changes true ∧
      l.sampleInterval = (Change.last Change.sampleInterval? changes none).filter (0 < ·) ∧
      l.sampleInterval ≠ some 0) ∧
    (ofJson (Bytes.ofString l.toJson.compact) = .ok l ∧
      Database.ofJson (Bytes.ofString d.toJson.compact) = .ok d) ∧
    ∀ told s, l.Told told → Document (.object told) s → ofJson s = .ok l := by
  intro l
  obtain ⟨cors, none⟩ : start.enableCors = true ∧ start.sampleInterval = none := by
    rcases fresh with rfl | ⟨host, port, rfl⟩ <;> exact ⟨rfl, rfl⟩
  have interval := start.sampleInterval_setUp changes none
  refine ⟨⟨start.host_setUp changes, start.port_setUp changes, ?_, interval, ?_⟩,
    ⟨l.ofJson_toJson, d.ofJson_toJson⟩, fun told s => l.ofJson_told⟩
  · rw [← cors]
    exact start.enableCors_setUp changes
  · intro zero
    rw [interval, Option.filter_eq_some_iff] at zero
    exact absurd zero.2 (by decide)

/-- An interval is given and taken back, and the members come in reverse behind one that is no
field; the largest numbers are read back too. -/
theorem setUp_reread_reversed :
    let start : Listener := { host := "::1", port := 0 }
    let l := start.setUp [.sampleInterval (some 5), .cors false, .sampleInterval (some 0)]
    let told := [("more", .list [.list [.null], .object []]), ("enable_cors", .flag false),
      ("port", .natural 0), ("host", .text "::1")]
    let d : Database := ⟨"", 4294967295, 18446744073709551615⟩
    l.sampleInterval = none ∧ ofJson (Bytes.ofString (Value.object told).compact) = .ok l ∧
      Database.ofJson (Bytes.ofString d.toJson.compact) = .ok d := by
  intro start l told d
  have fresh : start = {} ∨ ∃ host port, start = { host, port } := .inr ⟨_, _, rfl⟩
  obtain ⟨⟨-, -, -, interval, -⟩, ⟨-, database⟩, reread⟩ := setUp_reread fresh
    [.sampleInterval (some 5), .cors false, .sampleInterval (some 0)] d
  refine ⟨interval, reread (memberTrees told) _ ?_ (Value.object told).document_compact, database⟩
  let more : String × Tree := ("more", .list [.list [.null], .object []])
  have reversed : memberTrees told = (l.members.dropLast ++ [more]).reverse := rfl
  rw [reversed]
  refine ⟨l.members.dropLast, [more], .inr ⟨rfl, rfl⟩, ?_, List.reverse_perm _⟩
  intro m mem
  obtain rfl := List.mem_singleton.mp mem
  decide

end Listener

end MetricLedger.Settings
