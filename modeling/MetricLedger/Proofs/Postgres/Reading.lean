import MetricLedger.Postgres.Session
import MetricLedger.Proofs.Result
import MetricLedger.Proofs.Time.Rfc3339

/-!
# Replies and the records read from them

A reply is read row after row, and a row column after column. Either every row has all that a record
needs, and then the records are what its cells hold, or the first fault of the first row that has
one is told and nothing else. A time outside the known years is no fault that could be told: where
nothing before it is at fault, the program panics.
-/

namespace MetricLedger

/-- A record as a database keeps it. -/
def Record.kept (r : Record) : Record := { r with createdAt := r.createdAt.kept }

/-- The counts that an instant is read from are those of the known years. -/
theorem Instant.exists_ofMicros?_iff {n : Int} :
    (∃ t, ofMicros? n = some t) ↔
      knownYear (Time.Date.ofDayNumber (n / 86400000000)).year = true := by
  have day : n / 86400000000 = n / 1000000 / 86400 := by omega
  rw [day, knownYear_iff]
  constructor
  · rintro ⟨t, found⟩
    rw [← (ofSeconds?_eq_some_iff.mp found).1]
    exact t.within.2
  · intro known
    exact ⟨⟨_, _, by omega⟩, ofSeconds?_eq_some_iff.mpr ⟨rfl, rfl⟩⟩

namespace Postgres

/-- A column that records are read from. -/
structure Column where
  name : String
  type : SqlType
  title : String
  reads : SqlType → Bool

def Column.of (α : Type) [Field α] (name : String) : Column :=
  ⟨name, Field.type α, Field.title α, Field.reads α⟩

@[simp] theorem Column.name_of (α : Type) [Field α] (name : String) :
    (Column.of α name).name = name := rfl

theorem Column.reads_of (α : Type) [Field α] (name : String) (v : Value) :
    (Column.of α name).reads v.type = (Field.decode v : Option (Except String α)).isSome :=
  (Field.isSome_decode v).symm

/-- No value that can be read as such a field makes the program panic. -/
def Field.Total (α : Type) [Field α] : Prop :=
  ∀ (v : Value) (text : String), (Field.decode v : Option (Except String α)) ≠ some (.error text)

/-- The columns of a record, in the order of its fields. -/
def columns : List Column :=
  [.of Uuid "id", .of String "metric_name", .of String "metric_type", .of Double "value",
    .of Instant "created_at"]

/-- The row that has the parameters of a statement in these columns. -/
def Statement.echo (statement : Statement) : Row :=
  ⟨(columns.map (·.name)).zip (statement.parameters.map some)⟩

/-- The text of a value of one of the types of texts. -/
inductive Value.Spells : Value → String → Prop
  | text (s : String) : Spells (.text s) s
  | other {type : String} (s : String) (text : (SqlType.other type).isText = true) :
    Spells (.other type s) s

namespace Row

/-- The row has a value in the column, and of a type that is read there. -/
def Has (row : Row) (c : Column) : Prop :=
  ∃ v, row.cell? c.name = some (some v) ∧ c.reads v.type = true

/-- What is wrong with a row in a column. -/
inductive Lacks (row : Row) (c : Column) : StoreFault → Prop
  | missing (absent : row.cell? c.name = none) : Lacks row c (.columnNotFound c.name)
  | null (empty : row.cell? c.name = some none) : Lacks row c (.column c.name .null)
  | mismatched {v : Value} (there : row.cell? c.name = some (some v))
    (differs : c.reads v.type = false) :
    Lacks row c (.column c.name (.incompatible c.title c.type.name v.type.name))

def Complete (row : Row) : Prop := ∀ c ∈ columns, row.Has c

/-- The time of the row, if it has one, falls in the known years. -/
def Timely (row : Row) : Prop :=
  ∀ n, row.cell? "created_at" = some (some (.timestamp n)) →
    Instant.knownYear (Time.Date.ofDayNumber (n / 86400000000)).year = true

def Readable (row : Row) : Prop := row.Complete ∧ row.Timely

def Fails (row : Row) : StoreFault → Prop := FirstFault row.Has row.Lacks columns

/-- The row has all that a record needs, but its time is no instant. -/
def Overflows (row : Row) (text : String) : Prop :=
  row.Complete ∧ ¬ row.Timely ∧ text = timeOverflow

/-- The fields of a record are what the cells of the row hold. -/
structure Tells (row : Row) (r : Record) : Prop where
  id : row.cell? "id" = some (some (.uuid r.id))
  name : ∃ v, row.cell? "metric_name" = some (some v) ∧ v.Spells r.name
  type : ∃ v, row.cell? "metric_type" = some (some v) ∧ v.Spells r.type
  value : row.cell? "value" = some (some (.double r.value))
  createdAt : row.cell? "created_at" = some (some (.timestamp r.createdAt.micros))
  /-- The time has nothing beyond the microseconds of the cell. -/
  whole : Instant.ofMicros? r.createdAt.micros = some r.createdAt

end Row

/-! ## Values -/

theorem Field.decode_uuid {v : Value} {id : Uuid} :
    Field.decode v = some (.ok id) ↔ v = .uuid id := by
  cases v <;> simp [Field.decode]

theorem Field.total_uuid : Field.Total Uuid := by
  intro v text
  cases v <;> simp [Field.decode]

theorem Field.decode_double {v : Value} {x : Double} :
    Field.decode v = some (.ok x) ↔ v = .double x := by
  cases v <;> simp [Field.decode]

theorem Field.total_double : Field.Total Double := by
  intro v text
  cases v <;> simp [Field.decode]

theorem Field.decode_text {v : Value} {s : String} :
    Field.decode v = some (.ok s) ↔ v.Spells s := by
  constructor
  · intro h
    cases v with
    | text s => cases h; exact .text s
    | other type s =>
      obtain ⟨text, same⟩ := Option.ite_none_right_eq_some.mp h
      cases same
      exact .other s text
    | uuid | double | timestamp => cases h
  · rintro (_ | ⟨_, text⟩)
    · rfl
    · exact if_pos text

theorem Field.total_text : Field.Total String := by
  intro v text h
  cases v with
  | other type s =>
    obtain ⟨-, same⟩ := Option.ite_none_right_eq_some.mp h
    cases same
  | uuid | text | double | timestamp => cases h

/-- A time is told by the microseconds of the cell, and has no more. -/
theorem Field.decode_instant {v : Value} {t : Instant} : Field.decode v = some (.ok t) ↔
    v = .timestamp t.micros ∧ Instant.ofMicros? t.micros = some t := by
  constructor
  · intro h
    cases v with
    | timestamp n =>
      cases found : Instant.ofMicros? n with
      | none => simp [Field.decode, found] at h
      | some u =>
        obtain rfl : u = t := by simpa [Field.decode, found] using h
        rw [Instant.micros_of_ofMicros? found]
        exact ⟨rfl, found⟩
    | uuid | text | double | other => cases h
  · rintro ⟨rfl, whole⟩
    simp [Field.decode, whole]

theorem Field.decode_instant_eq_error_iff {v : Value} {text : String} :
    (Field.decode v : Option (Except String Instant)) = some (.error text) ↔
      ∃ n, v = .timestamp n ∧
        Instant.knownYear (Time.Date.ofDayNumber (n / 86400000000)).year = false ∧
        text = timeOverflow := by
  have beyond (n : Int) : Instant.ofMicros? n = none ↔
      Instant.knownYear (Time.Date.ofDayNumber (n / 86400000000)).year = false := by
    rw [← Bool.not_eq_true, ← Instant.exists_ofMicros?_iff, ← Option.ne_none_iff_exists', not_not]
  cases v with
  | timestamp n =>
    simp only [Value.timestamp.injEq, exists_eq_left', ← beyond]
    cases found : Instant.ofMicros? n <;> simp [Field.decode, found, eq_comm]
  | uuid | text | double | other => simp [Field.decode]

/-! ## One column -/

section
variable {α : Type} [Field α] {row : Row} {name : String}

theorem Row.field_eq_ok_iff {a : α} : row.field α name = .ok a ↔
    ∃ v, row.cell? name = some (some v) ∧ Field.decode v = some (.ok a) := by
  unfold field
  split
  · rename_i absent; simp [absent]
  · rename_i empty; simp [empty]
  · rename_i v there
    rcases read : (Field.decode v : Option (Except String α)) with _ | text | b <;>
      simp [there, read]

theorem Row.field_eq_panicked_iff {text : String} : row.field α name = .error (.panicked text) ↔
    ∃ v, row.cell? name = some (some v) ∧
      (Field.decode v : Option (Except String α)) = some (.error text) := by
  unfold field
  split
  · rename_i absent; simp [absent]
  · rename_i empty; simp [empty]
  · rename_i v there
    rcases read : (Field.decode v : Option (Except String α)) with _ | other | b <;>
      simp [there, read]

theorem Row.field_eq_failed_iff {f : StoreFault} :
    row.field α name = .error (.failed f) ↔ row.Lacks (.of α name) f := by
  unfold field
  constructor
  · intro h
    split at h
    · rename_i absent
      cases h
      exact .missing absent
    · rename_i empty
      cases h
      exact .null empty
    · rename_i v there
      split at h
      · cases h
      · cases h
      · rename_i unread
        cases h
        refine .mismatched there ?_
        rw [Column.reads_of, unread, Option.isSome_none]
  · intro h
    cases h with
    | missing absent => rw [Column.name_of] at absent; simp [absent]
    | null empty => rw [Column.name_of] at empty; simp [empty]
    | mismatched there differs =>
      rw [Column.name_of] at there
      rw [Column.reads_of, Option.isSome_eq_false_iff, Option.isNone_iff_eq_none] at differs
      simp only [there, differs]
      rfl

theorem Row.exists_lacks_iff {c : Column} : (∃ f, row.Lacks c f) ↔ ¬ row.Has c := by
  constructor
  · rintro ⟨f, absent | empty | ⟨there, differs⟩⟩ ⟨v, has, reads⟩
    · simp [absent] at has
    · simp [empty] at has
    · rw [there, Option.some_inj, Option.some_inj] at has
      simp [← has, differs] at reads
  · intro without
    match cell : row.cell? c.name with
    | none => exact ⟨_, .missing cell⟩
    | some none => exact ⟨_, .null cell⟩
    | some (some v) =>
      exact ⟨_, .mismatched cell (Bool.eq_false_iff.mpr fun reads => without ⟨v, cell, reads⟩)⟩

section
variable (total : Field.Total α)
include total

theorem Row.field_ne_panicked {text : String} : row.field α name ≠ .error (.panicked text) := by
  intro h
  obtain ⟨v, -, panics⟩ := field_eq_panicked_iff.mp h
  exact total v text panics

theorem Row.exists_field_iff : (∃ a, row.field α name = .ok a) ↔ row.Has (.of α name) := by
  rw [exists_ok_iff, ← not_iff_not, not_not, ← exists_lacks_iff]
  constructor
  · rintro ⟨f | text, h⟩
    · exact ⟨f, field_eq_failed_iff.mp h⟩
    · exact absurd h (field_ne_panicked total)
  · rintro ⟨f, lacks⟩
    exact ⟨_, field_eq_failed_iff.mpr lacks⟩

/-- A field at fault ends the reading of a row; otherwise the columns behind it decide. -/
theorem Row.bind_field_eq_failed_iff {k : α → Result β} {cs : List Column} {f : StoreFault}
    (later : ∀ a, k a = .error (.failed f) ↔ FirstFault row.Has row.Lacks cs f) :
    (row.field α name >>= k) = .error (.failed f) ↔
      FirstFault row.Has row.Lacks (.of α name :: cs) f := by
  rw [bind_eq_error_iff, firstFault_cons, field_eq_failed_iff, ← exists_field_iff total]
  simp only [later, exists_and_right]

/-- A panic comes only after a field that the row has. -/
theorem Row.bind_field_eq_panicked_iff {k : α → Result β} {cs : List Column} {text : String}
    {p : Prop} (later : ∀ a, k a = .error (.panicked text) ↔ (∀ c ∈ cs, row.Has c) ∧ p) :
    (row.field α name >>= k) = .error (.panicked text) ↔
      (∀ c ∈ Column.of α name :: cs, row.Has c) ∧ p := by
  rw [bind_eq_error_iff, List.forall_mem_cons, and_assoc, ← exists_field_iff total]
  simp only [later, exists_and_right, field_ne_panicked total, false_or]

end

/-- Behind the last field nothing can be at fault. -/
theorem Row.bind_last_eq_failed_iff {k : α → β} {f : StoreFault} :
    (row.field α name >>= fun a => .ok (k a)) = .error (.failed f) ↔
      FirstFault row.Has row.Lacks [.of α name] f := by
  rw [bind_eq_error_iff, firstFault_cons, field_eq_failed_iff]
  refine or_congr_right (iff_of_false ?_ fun ⟨_, fault⟩ => firstFault_nil fault)
  rintro ⟨a, -, h⟩
  cases h

end

/-! ## One row -/

namespace Row

variable {row : Row}

theorem record_eq_failed_iff {f : StoreFault} : row.record = .error (.failed f) ↔ row.Fails f :=
  bind_field_eq_failed_iff Field.total_uuid fun _ =>
    bind_field_eq_failed_iff Field.total_text fun _ =>
    bind_field_eq_failed_iff Field.total_text fun _ =>
    bind_field_eq_failed_iff Field.total_double fun _ => bind_last_eq_failed_iff

/-- Of all columns only the last, the time, can make the program panic. -/
theorem bind_time_eq_panicked_iff {k : Instant → β} {text : String} :
    (row.field Instant "created_at" >>= fun t => (.ok (k t) : Result β)) =
        .error (.panicked text) ↔
      (∀ c ∈ [Column.of Instant "created_at"], row.Has c) ∧ ¬ row.Timely ∧ text = timeOverflow := by
  rw [bind_eq_error_iff, field_eq_panicked_iff, List.forall_mem_singleton]
  constructor
  · rintro (⟨v, there, panics⟩ | ⟨t, -, h⟩)
    · obtain ⟨n, rfl, beyond, same⟩ := Field.decode_instant_eq_error_iff.mp panics
      exact ⟨⟨_, there, rfl⟩, fun timely => by simp [timely n there] at beyond, same⟩
    · cases h
  · rintro ⟨-, late, same⟩
    unfold Timely at late
    push Not at late
    obtain ⟨n, there, beyond⟩ := late
    exact .inl ⟨_, there, Field.decode_instant_eq_error_iff.mpr
      ⟨n, rfl, Bool.eq_false_iff.mpr beyond, same⟩⟩

theorem record_eq_panicked_iff {text : String} :
    row.record = .error (.panicked text) ↔ row.Overflows text :=
  bind_field_eq_panicked_iff Field.total_uuid fun _ =>
    bind_field_eq_panicked_iff Field.total_text fun _ =>
    bind_field_eq_panicked_iff Field.total_text fun _ =>
    bind_field_eq_panicked_iff Field.total_double fun _ => bind_time_eq_panicked_iff

theorem exists_record_iff : (∃ r, row.record = .ok r) ↔ row.Readable := by
  have whole : (∃ f, row.Fails f) ↔ ¬ row.Complete :=
    exists_firstFault_iff fun c => exists_lacks_iff
  rw [exists_ok_iff, Readable]
  constructor
  · intro sound
    have complete : row.Complete := by
      by_contra incomplete
      obtain ⟨f, fails⟩ := whole.mpr incomplete
      exact sound ⟨_, record_eq_failed_iff.mpr fails⟩
    refine ⟨complete, ?_⟩
    by_contra late
    exact sound ⟨_, record_eq_panicked_iff.mpr ⟨complete, late, rfl⟩⟩
  · rintro ⟨complete, timely⟩ ⟨f | text, h⟩
    · exact whole.mp ⟨f, record_eq_failed_iff.mp h⟩ complete
    · exact (record_eq_panicked_iff.mp h).2.1 timely

theorem record_eq_ok_iff {r : Record} : row.record = .ok r ↔ row.Tells r := by
  simp only [record, bind_eq_ok_iff, field_eq_ok_iff, Field.decode_uuid, Field.decode_text,
    Field.decode_double, Field.decode_instant]
  constructor
  · rintro ⟨id, ⟨_, isId, rfl⟩, name, isName, type, isType, value, ⟨_, isValue, rfl⟩, time,
      ⟨_, isTime, rfl, whole⟩, made⟩
    cases made
    exact ⟨isId, isName, isType, isValue, isTime, whole⟩
  · intro h
    exact ⟨_, ⟨_, h.id, rfl⟩, _, h.name, _, h.type, _, ⟨_, h.value, rfl⟩, _,
      ⟨_, h.createdAt, rfl, h.whole⟩, rfl⟩

/-- The row of a record tells it as a database keeps it, if its time comes back at all. -/
theorem tells_ofRecord {r : Record}
    (comes : Instant.ofMicros? r.createdAt.micros = some r.createdAt.kept) :
    (ofRecord r).Tells r.kept where
  id := rfl
  name := ⟨_, rfl, .text r.name⟩
  type := ⟨_, rfl, .text r.type⟩
  value := rfl
  createdAt := by rw [Record.kept, Instant.micros_kept]; rfl
  whole := by rw [Record.kept, Instant.micros_kept, comes]

theorem record_ofRecord {r : Record}
    (comes : Instant.ofMicros? r.createdAt.micros = some r.createdAt.kept) :
    (ofRecord r).record = .ok r.kept :=
  record_eq_ok_iff.mpr (tells_ofRecord comes)

end Row

/-! ## Whole replies -/

/-- What becomes of the rows of a reply: all their records in their order, or the first fault, or a
panic where a time is the first thing that cannot be read. -/
structure ReadsAll (found : List Row) (result : Result (List Record)) : Prop where
  succeeds : (∃ rs, result = .ok rs) ↔ ∀ row ∈ found, row.Readable
  tells : ∀ rs, result = .ok rs ↔ List.Forall₂ Row.Tells found rs
  fails : ∀ f, result = .error (.failed f) ↔ FirstFault Row.Readable Row.Fails found f
  panics : ∀ text, result = .error (.panicked text) ↔
    FirstFault Row.Readable Row.Overflows found text

/-- What becomes of the one row that is read. -/
structure ReadsOne (row : Row) (result : Result Record) : Prop where
  succeeds : (∃ r, result = .ok r) ↔ row.Readable
  tells : ∀ r, result = .ok r ↔ row.Tells r
  fails : ∀ f, result = .error (.failed f) ↔ row.Fails f
  panics : ∀ text, result = .error (.panicked text) ↔ row.Overflows text

/-- What becomes of the rows of a reply of which only the first is looked at. -/
def ReadsFirst (result : Result Record) : List Row → Prop
  | [] => result = .error (.failed .rowNotFound)
  | row :: _ => ReadsOne row result

theorem readsOne_record (row : Row) : ReadsOne row row.record where
  succeeds := Row.exists_record_iff
  tells _ := Row.record_eq_ok_iff
  fails _ := Row.record_eq_failed_iff
  panics _ := Row.record_eq_panicked_iff

theorem readsAll_mapM (found : List Row) : ReadsAll found (found.mapM Row.record) where
  succeeds := by simp only [exists_mapM_iff, Row.exists_record_iff]
  tells rs := by simp only [mapM_eq_ok_iff, Row.record_eq_ok_iff]
  fails f := by
    simp only [mapM_eq_error_iff, Row.exists_record_iff, FirstFault, Row.record_eq_failed_iff]
  panics text := by
    simp only [mapM_eq_error_iff, Row.exists_record_iff, FirstFault, Row.record_eq_panicked_iff]

section
variable {server : Server σ} {s : Session σ} {found : List Row}

theorem Session.readsAll_select {statement : Statement}
    (replied : (server.answer statement s.server).1 = .rows found) :
    ReadsAll found (s.select server statement).1 := by
  have read : (s.select server statement).1 = found.mapM Row.record := by
    simp only [select, execute, replied, Reply.result, Except.bind]
  rw [read]
  exact readsAll_mapM found

theorem Session.readsFirst_create {stamp : Stamp} {m : Measurement}
    (replied : (server.answer (.insert (.ofMeasurement m stamp)) s.server).1 = .rows found) :
    ReadsFirst (s.create server stamp m).1 found := by
  simp only [create, execute, replied, Reply.result, Except.bind]
  cases found with
  | nil => rfl
  | cons row rows => exact readsOne_record row

end

/-- Listing reads all rows of a reply, in their order, if every row has a value of a readable type
in each column and its time falls in the known years. Otherwise the first row of which this is not
so decides: its first fault is told, or the program panics if its time alone cannot be read.
Recording reads the first row alone, and tells where there is none. Where that row is what was sent,
by a clock that knows of no leap seconds, the record is the one that a ledger makes of the
measurement, with its time as a database keeps it. -/
theorem replies_read (server : Server σ) (s : Session σ) :
    (∀ found, (server.answer .selectAll s.server).1 = .rows found →
      ReadsAll found ((store server).all s).1) ∧
    (∀ name found, (server.answer (.selectNamed name) s.server).1 = .rows found →
      ReadsAll found ((store server).named name s).1) ∧
    ∀ stamp m found,
      let insert := Statement.insert (.ofMeasurement m stamp)
      let created := ((store server).create stamp m s).1
      (server.answer insert s.server).1 = .rows found →
        ReadsFirst created found ∧
        (stamp.time.nanos < 1000000000 → found.head? = some insert.echo →
          ∀ l, ∃ r, (Store.inMemory.create stamp m l).1 = .ok r ∧ created = .ok r.kept) := by
  refine ⟨fun found replied => Session.readsAll_select replied,
    fun name found replied => Session.readsAll_select replied, ?_⟩
  intro stamp m found insert created replied
  have reads : ReadsFirst created found := Session.readsFirst_create replied
  refine ⟨reads, fun plain echoed l => ⟨_, rfl, ?_⟩⟩
  obtain ⟨rest, rfl⟩ := List.head?_eq_some_iff.mp echoed
  exact (reads.tells _).mpr (Row.tells_ofRecord (Instant.ofMicros?_micros plain))

/-- A row of types that are read as the fields of a record, with a name that comes twice. -/
def readableRow : Row :=
  ⟨[("created_at", some (.timestamp 1700000000000001)), ("metric_type", some (.text "gauge")),
    ("value", none), ("value", some (.double (.ofNat 45))), ("id", some (.uuid ⟨7⟩)),
    ("metric_name", some (.other "VARCHAR" "cpu_usage")), ("unit", none)]⟩

/-- A row with a whole number for a value, and without the time. -/
def unreadableRow : Row :=
  ⟨[("id", some (.uuid ⟨8⟩)), ("metric_name", some (.text "cpu_usage")),
    ("metric_type", some (.text "gauge")), ("value", some (.other "INT4" "45"))]⟩

/-- Lists a row that can be read and one that cannot, or the first alone; and sends back what is
inserted. -/
def Server.mixed : Server Unit where
  answer
    | .createTable, s | .createIndex, s => (.rows [], s)
    | .insert r, s => (.rows [(Statement.insert r).echo, unreadableRow], s)
    | .selectNamed _, s => (.rows [readableRow], s)
    | .selectAll, s => (.rows [readableRow, unreadableRow], s)

theorem mixed_replies_read :
    let s : Session Unit := ⟨(), []⟩
    let r : Record := ⟨⟨7⟩, "cpu_usage", "gauge", .ofNat 45, ⟨1700000000, 1000, by decide⟩⟩
    let m : Measurement := ⟨"'); --", "", .ofMagnitude true (Double.infinity + 1)⟩
    let stamp : Stamp := ⟨⟨9⟩, ⟨1700000000, 1999, by decide⟩⟩
    ((store .mixed).named "cpu_usage" s).1 = .ok [r] ∧
    ((store .mixed).all s).1 =
      .error (.failed (.column "value" (.incompatible "f64" "FLOAT8" "INT4"))) ∧
    ((store .mixed).create stamp m s).1 =
      .ok { Record.ofMeasurement m stamp with createdAt := ⟨1700000000, 1000, by decide⟩ } := by
  intro s r m stamp
  obtain ⟨all, named, created⟩ := replies_read .mixed s
  have tells : readableRow.Tells r :=
    ⟨rfl, ⟨_, rfl, .other _ rfl⟩, ⟨_, rfl, .text _⟩, rfl, by decide, by decide⟩
  have readable : readableRow.Readable :=
    Row.exists_record_iff.mp ⟨r, Row.record_eq_ok_iff.mpr tells⟩
  have differs : unreadableRow.Lacks (.of Double "value")
      (.column "value" (.incompatible "f64" "FLOAT8" "INT4")) :=
    .mismatched (v := .other "INT4" "45") rfl rfl
  obtain ⟨_, made, echoed⟩ := (created stamp m _ rfl).2 (by decide) rfl .empty
  cases made
  refine ⟨?_, ?_, echoed.trans (congrArg Except.ok (by decide))⟩
  · exact ((named "cpu_usage" [readableRow] rfl).tells [r]).mpr (.cons tells .nil)
  · refine ((all [readableRow, unreadableRow] rfl).fails _).mpr
      ⟨[readableRow], unreadableRow, [], rfl, List.forall_mem_singleton.mpr readable, ?_⟩
    refine ⟨[.of Uuid "id", .of String "metric_name", .of String "metric_type"], .of Double "value",
      [.of Instant "created_at"], rfl, ?_, differs⟩
    simp only [List.forall_mem_cons]
    exact ⟨⟨_, rfl, rfl⟩, ⟨_, rfl, rfl⟩, ⟨_, rfl, rfl⟩, nofun⟩

/-- A row with all that a record needs, at the beginning of the year 290000. -/
def distantRow : Row :=
  ⟨[("id", some (.uuid ⟨7⟩)), ("metric_name", some (.text "cpu_usage")),
    ("metric_type", some (.text "gauge")), ("value", some (.double (.ofNat 1))),
    ("created_at", some (.timestamp 9089348860800000000))]⟩

theorem complete_distantRow : distantRow.Complete := by
  simp only [Row.Complete, columns, List.forall_mem_cons]
  exact ⟨⟨_, rfl, rfl⟩, ⟨_, rfl, rfl⟩, ⟨_, rfl, rfl⟩, ⟨_, rfl, rfl⟩, ⟨_, rfl, rfl⟩, nofun⟩

theorem not_timely_distantRow : ¬ distantRow.Timely := by
  intro timely
  exact absurd (timely 9089348860800000000 rfl) (by decide)

/-- Lists a row whose time is no instant. -/
def Server.distant : Server Unit where
  answer
    | .createTable, s | .createIndex, s | .insert _, s => (.rows [], s)
    | .selectNamed _, s | .selectAll, s => (.rows [distantRow], s)

/-- A row with a value of the right type in each column is neither read nor is its fault told. -/
theorem distant_row_not_read :
    let listed := ((store .distant).all ⟨(), []⟩).1
    (Server.distant.answer .selectAll ()).1 = .rows [distantRow] ∧ distantRow.Complete ∧
      (∀ rs, listed ≠ .ok rs) ∧ ∀ f, listed ≠ .error (.failed f) := by
  intro listed
  have panics : listed = .error (.panicked timeOverflow) :=
    (readsAll_mapM [distantRow]).panics timeOverflow |>.mpr
      ⟨[], distantRow, [], rfl, nofun, complete_distantRow, not_timely_distantRow, rfl⟩
  rw [panics]
  exact ⟨rfl, complete_distantRow, nofun, nofun⟩

end Postgres

end MetricLedger
