import Mathlib.Data.List.Sort
import MetricLedger.Postgres.Plan
import MetricLedger.Proofs.Postgres.Reading

/-!
# The order of a table

A ledger lists records in the order in which they were recorded. A table has no order of its own: it
keeps times in whole microseconds and is listed by time, and within a microsecond by identifier. So
the two list the same records, and in one order only if the identifiers of each microsecond happen
to ascend.
-/

namespace MetricLedger

namespace Record

/-- The order in which a table is listed. -/
def Precedes (a b : Record) : Prop :=
  a.createdAt.micros < b.createdAt.micros ∨
    a.createdAt.micros = b.createdAt.micros ∧ a.id.bits.toNat ≤ b.id.bits.toNat

instance : DecidableRel Precedes := fun a b =>
  inferInstanceAs (Decidable (a.createdAt.micros < b.createdAt.micros ∨
    a.createdAt.micros = b.createdAt.micros ∧ a.id.bits.toNat ≤ b.id.bits.toNat))

instance : Std.Total Precedes := ⟨fun a b => by unfold Precedes; omega⟩

instance : IsTrans Record Precedes := ⟨fun a b c => by unfold Precedes; omega⟩

/-- Records of one microsecond come in the order of their identifiers. -/
def InStep (rs : List Record) : Prop :=
  rs.Pairwise fun a b =>
    a.createdAt.micros = b.createdAt.micros → a.id.bits.toNat < b.id.bits.toNat

instance (rs : List Record) : Decidable (InStep rs) :=
  inferInstanceAs (Decidable (rs.Pairwise fun a b =>
    a.createdAt.micros = b.createdAt.micros → a.id.bits.toNat < b.id.bits.toNat))

theorem eq_of_bits_eq {a b : Uuid} (h : a.bits.toNat = b.bits.toNat) : a = b := by
  cases a
  cases b
  exact congrArg Uuid.mk (BitVec.eq_of_toNat_eq h)

theorem id_eq_of_precedes {a b : Record} (h : a.Precedes b) (k : b.Precedes a) : a.id = b.id := by
  apply eq_of_bits_eq
  unfold Precedes at h k
  omega

@[simp] theorem id_kept (r : Record) : r.kept.id = r.id := rfl

@[simp] theorem measurement_kept (r : Record) : r.kept.measurement = r.measurement := rfl

@[simp] theorem micros_kept (r : Record) : r.kept.createdAt.micros = r.createdAt.micros :=
  r.createdAt.micros_kept

@[simp] theorem kept_kept (r : Record) : r.kept.kept = r.kept := by
  simp [kept]

@[simp] theorem precedes_kept (a b : Record) : a.kept.Precedes b.kept ↔ a.Precedes b := by
  simp [Precedes]

/-- With a clock that does not go back, records stand in the order of a table if and only if they
are in step. -/
theorem pairwise_precedes_iff {rs : List Record} (distinct : (rs.map (·.id)).Nodup)
    (clock : rs.Pairwise fun a b => a.createdAt.micros ≤ b.createdAt.micros) :
    rs.Pairwise Precedes ↔ InStep rs := by
  have apart : rs.Pairwise fun a b => a.id ≠ b.id := List.pairwise_map.mp distinct
  constructor
  · intro sorted
    refine (sorted.and apart).imp fun {a b} ⟨precedes, differ⟩ same => ?_
    have bits : a.id.bits.toNat ≠ b.id.bits.toNat := fun h => differ (eq_of_bits_eq h)
    unfold Precedes at precedes
    omega
  · intro inStep
    refine (clock.and inStep).imp fun {a b} ⟨later, ascends⟩ => ?_
    rcases Int.lt_or_eq_of_le later with less | same
    · exact .inl less
    · exact .inr ⟨same, Nat.le_of_lt (ascends same)⟩

/-- How a table lists what a ledger lists in the order of recording. -/
structure Tabulated (made rs : List Record) : Prop where
  same : rs.Perm (made.map kept)
  sorted : rs.Pairwise Precedes
  inOrder_iff : rs = made.map kept ↔ InStep made
  measured : InStep made → rs.map measurement = made.map measurement

theorem tabulated {made rs : List Record} (same : rs.Perm (made.map kept))
    (sorted : rs.Pairwise Precedes) (distinct : (made.map (·.id)).Nodup)
    (clock : made.Pairwise fun a b => a.createdAt.micros ≤ b.createdAt.micros) :
    Tabulated made rs := by
  have keptIds : ((made.map kept).map (·.id)).Nodup := by
    rwa [List.map_map]
  have inOrder : rs = made.map kept ↔ InStep made := by
    rw [← pairwise_precedes_iff distinct clock]
    constructor
    · rintro rfl
      simpa only [List.pairwise_map, precedes_kept] using sorted
    · intro inStep
      refine same.eq_of_pairwise ?_ sorted ?_
      · intro a b ha hb h k
        exact List.inj_on_of_nodup_map keptIds (same.subset ha) hb (id_eq_of_precedes h k)
      · simpa only [List.pairwise_map, precedes_kept] using inStep
  refine ⟨same, sorted, inOrder, fun inStep => ?_⟩
  rw [inOrder.mpr inStep, List.map_map]
  rfl

/-- Whether a listing asks for a record: for those of one name, or for all. -/
def isAsked : Option String → Record → Bool
  | some name, r => r.name == name
  | none, _ => true

theorem filter_kept (name : Option String) (rs : List Record) :
    (rs.map kept).filter (isAsked name) = (rs.filter (isAsked name)).map kept := by
  rw [List.filter_map]
  refine congrArg _ (List.filter_congr fun r _ => ?_)
  cases name <;> rfl

end Record

namespace Postgres

/-- The statement that lists the records of one name, or all. -/
def Statement.listing : Option String → Statement
  | some name => .selectNamed name
  | none => .selectAll

/-- A server that keeps what is inserted, with its time in whole microseconds, and lists what is
asked for in the order of a table. `table` tells what it has kept, in no order of its own. -/
structure Server.Tabulates (server : Server σ) (table : σ → List Record) : Prop where
  insert (r : Record) (s : σ) (fresh : r.id ∉ (table s).map (·.id)) :
    ∃ t, server.answer (.insert r) s = (.rows [.ofRecord r], t) ∧
      (table t).Perm (table s ++ [r.kept])
  list (name : Option String) (s : σ) :
    ∃ (rs : List Record) (t : σ),
      server.answer (.listing name) s = (.rows (rs.map Row.ofRecord), t) ∧
      rs.Perm ((table s).filter (Record.isAsked name)) ∧ rs.Pairwise Record.Precedes ∧
      (table t).Perm (table s)

/-- A record to be made of a measurement. -/
abbrev Creation := Stamp × Measurement

def Creation.record (c : Creation) : Record := .ofMeasurement c.2 c.1

@[simp] theorem Creation.id_record (c : Creation) : c.record.id = c.1.id := rfl

/-- The row of a record is read back as the record that is kept of it, and that one as itself. -/
theorem Creation.read_rows {c : Creation} (plain : c.1.time.nanos < 1000000000) :
    (Row.ofRecord c.record).record = .ok c.record.kept ∧
      (Row.ofRecord c.record.kept).record = .ok c.record.kept := by
  have comes : Instant.ofMicros? c.record.createdAt.micros = some c.record.createdAt.kept :=
    Instant.ofMicros?_micros plain
  refine ⟨Row.record_ofRecord comes, ?_⟩
  have again := Row.record_ofRecord (r := c.record.kept) (by simpa [Record.kept] using comes)
  rwa [Record.kept_kept] at again

/-- Asks for records to be made, one after the other. -/
def Session.createAll (server : Server σ) (creations : List Creation) (s : Session σ) :
    List (Result Outcome) × Session σ :=
  s.run server (creations.map fun c => (c.1, .create c.2))

section
variable {server : Server σ} {table : σ → List Record} (h : server.Tabulates table)
include h

theorem Server.Tabulates.create (s : Session σ) {c : Creation}
    (plain : c.1.time.nanos < 1000000000) (fresh : c.1.id ∉ (table s.server).map (·.id)) :
    (s.create server c.1 c.2).1 = .ok c.record.kept ∧
      (table (s.create server c.1 c.2).2.server).Perm (table s.server ++ [c.record.kept]) := by
  obtain ⟨t, answered, kept⟩ := h.insert c.record s.server fresh
  have read := (Creation.read_rows plain).1
  unfold Creation.record at answered kept read
  simp only [Session.create, Session.execute, answered, Reply.result, Except.bind]
  exact ⟨read, kept⟩

/-- Records made one after the other under identifiers of their own are all kept. -/
theorem Server.Tabulates.createAll {creations : List Creation}
    (plain : ∀ c ∈ creations, c.1.time.nanos < 1000000000) (s : Session σ)
    (distinct : ((table s.server).map (·.id) ++ creations.map (·.1.id)).Nodup) :
    (s.createAll server creations).1 = creations.map (fun c => .ok (.stored c.record.kept)) ∧
      (table (s.createAll server creations).2.server).Perm
        (table s.server ++ creations.map fun c => c.record.kept) := by
  induction creations generalizing s with
  | nil => exact ⟨rfl, by simp [Session.createAll, Session.run]⟩
  | cons c creations ih =>
    have fresh : c.1.id ∉ (table s.server).map (·.id) := by
      rw [List.map_cons, List.nodup_append'] at distinct
      exact fun mem => distinct.2.2 mem (List.mem_cons_self ..)
    obtain ⟨here, later⟩ := List.forall_mem_cons.mp plain
    obtain ⟨stored, kept⟩ := h.create s here fresh
    have others : ((table (s.create server c.1 c.2).2.server).map (·.id) ++
        creations.map (·.1.id)).Nodup := by
      refine ((kept.map (·.id)).append_right _).nodup_iff.mpr ?_
      simpa using distinct
    obtain ⟨results, all⟩ := ih later _ others
    unfold Session.createAll at results all ⊢
    rw [List.map_cons, Session.run]
    simp only [Request.perform, store, stored, Except.map, results, List.map_cons]
    refine ⟨trivial, all.trans ?_⟩
    simpa using kept.append_right (creations.map fun c => c.record.kept)

/-- What a table of kept records lists. -/
theorem Server.Tabulates.select (s : Session σ) (name : Option String)
    (whole : ∀ r ∈ table s.server, (Row.ofRecord r).record = .ok r) :
    ∃ rs, (s.select server (.listing name)).1 = .ok rs ∧
      rs.Perm ((table s.server).filter (Record.isAsked name)) ∧ rs.Pairwise Record.Precedes := by
  obtain ⟨rs, t, answered, same, sorted, -⟩ := h.list name s.server
  refine ⟨rs, ?_, same, sorted⟩
  simp only [Session.select, Session.execute, answered, Reply.result, Except.bind]
  rw [mapM_eq_ok_iff, List.forall₂_map_left_iff, List.forall₂_same]
  exact fun r mem => whole r (List.mem_of_mem_filter (same.subset mem))

end

/-- A ledger of records made one after the other. -/
def ledgerOf (creations : List Creation) : Ledger :=
  creations.foldl (fun l c => (Store.inMemory.create c.1 c.2 l).2) .empty

theorem records_ledgerOf (creations : List Creation) :
    (ledgerOf creations).records = creations.map Creation.record := by
  have appended (l : Ledger) : (creations.foldl (fun l c => (Store.inMemory.create c.1 c.2 l).2)
      l).records = l.records ++ creations.map Creation.record := by
    induction creations generalizing l with
    | nil => exact (List.append_nil _).symm
    | cons c creations ih =>
      rw [List.foldl_cons, ih]
      exact List.append_assoc ..
  exact appended .empty

/-- Times that do not go back do not go back in whole microseconds either. -/
theorem micros_in_time {creations : List Creation}
    (clock : creations.Pairwise fun c d => c.1.time ≤ d.1.time)
    (plain : ∀ c ∈ creations, c.1.time.nanos < 1000000000) :
    (creations.map Creation.record).Pairwise fun a b =>
      a.createdAt.micros ≤ b.createdAt.micros := by
  rw [List.pairwise_map]
  exact clock.imp_of_mem fun mem _ le => Instant.micros_mono (plain _ mem) le

/-- Records are made one after the other, under identifiers of their own and by a clock that does
not go back, in a table and in a ledger. The ledger lists them in the order of recording. The table
lists the same records, in the order of a table; this is the order of recording if and only if the
identifiers of those listed ascend within each microsecond. -/
theorem listed_in_order_iff {server : Server σ} {table : σ → List Record}
    (h : server.Tabulates table) (s : Session σ) (empty : table s.server = [])
    (creations : List Creation) (clock : creations.Pairwise fun c d => c.1.time ≤ d.1.time)
    (plain : ∀ c ∈ creations, c.1.time.nanos < 1000000000)
    (distinct : (creations.map (·.1.id)).Nodup) :
    let created := s.createAll server creations
    let ledger := ledgerOf creations
    created.1 = creations.map (fun c => .ok (.stored c.record.kept)) ∧
      ledger.records = creations.map Creation.record ∧
      (∃ rs, ((store server).all created.2).1 = .ok rs ∧ Record.Tabulated ledger.records rs) ∧
      ∀ name, ∃ rs, ((store server).named name created.2).1 = .ok rs ∧
        Record.Tabulated (ledger.named name) rs := by
  intro created ledger
  have records : ledger.records = creations.map Creation.record := records_ledgerOf creations
  obtain ⟨results, kept⟩ := h.createAll plain s (by simpa [empty] using distinct)
  rw [empty, List.nil_append] at kept
  have whole : ∀ r ∈ table created.2.server, (Row.ofRecord r).record = .ok r := by
    intro r mem
    obtain ⟨c, among, rfl⟩ := List.mem_map.mp (kept.subset mem)
    exact (Creation.read_rows (plain c among)).2
  have listed (name : Option String) :
      ∃ rs, (created.2.select server (.listing name)).1 = .ok rs ∧
        Record.Tabulated (ledger.records.filter (Record.isAsked name)) rs := by
    obtain ⟨rs, read, same, sorted⟩ := h.select created.2 name whole
    refine ⟨rs, read, Record.tabulated ?_ sorted ?_ ?_⟩
    · rw [← Record.filter_kept, records, List.map_map]
      exact same.trans (kept.filter _)
    · refine List.Nodup.sublist (List.filter_sublist.map _) ?_
      rwa [records, List.map_map]
    · rw [records]
      exact (micros_in_time clock plain).filter _
  have all : ledger.records.filter (Record.isAsked none) = ledger.records :=
    List.filter_eq_self.mpr fun _ _ => rfl
  refine ⟨results, records, ?_, fun name => listed (some name)⟩
  rw [← all]
  exact listed none

/-- A server that keeps records in a list and sorts them when it lists them. -/
def Server.sorting : Server (List Record) where
  answer
    | .createTable, rs | .createIndex, rs => (.rows [], rs)
    | .insert r, rs => (.rows [.ofRecord r], rs ++ [r.kept])
    | .selectNamed name, rs =>
      (.rows (((rs.filter (·.name == name)).insertionSort Record.Precedes).map .ofRecord), rs)
    | .selectAll, rs => (.rows ((rs.insertionSort Record.Precedes).map .ofRecord), rs)

theorem tabulates_sorting : Server.sorting.Tabulates fun rs => rs where
  insert r rs _ := ⟨_, rfl, .refl _⟩
  list name rs := by
    refine ⟨(rs.filter (Record.isAsked name)).insertionSort Record.Precedes, rs, ?_,
      List.perm_insertionSort _ _, List.pairwise_insertionSort _ _, .refl _⟩
    cases name with
    | some name => rfl
    | none =>
      rw [List.filter_eq_self.mpr fun _ _ => by rfl]
      rfl

/-- Two records made within one microsecond. -/
def twoAtOnce (first second : Uuid) : List Creation :=
  [(⟨first, ⟨1704067200, 100, by decide⟩⟩, ⟨"cpu_usage", "gauge", .ofNat 1⟩),
    (⟨second, ⟨1704067200, 900, by decide⟩⟩, ⟨"cpu_usage", "gauge", .ofNat 2⟩)]

theorem two_at_once_in_order :
    let creations := twoAtOnce ⟨0x40008000000000000000⟩ ⟨0x40008000000000000001⟩
    let created := Session.createAll .sorting creations ⟨[], []⟩
    ((store .sorting).all created.2).1 = .ok ((ledgerOf creations).records.map Record.kept) := by
  intro creations created
  obtain ⟨-, -, ⟨rs, read, tabulated⟩, -⟩ := listed_in_order_iff tabulates_sorting ⟨[], []⟩ rfl
    creations (by decide) (by decide) (by decide)
  rw [← tabulated.inOrder_iff.mpr (by decide)]
  exact read

/-- A record that was made after another one, by a clock that goes on, comes before it. -/
theorem later_listed_first :
    let creations := twoAtOnce ⟨0x40008000000000000001⟩ ⟨0x40008000000000000000⟩
    let created := Session.createAll .sorting creations ⟨[], []⟩
    let made := (ledgerOf creations).records
    Server.sorting.Tabulates (fun rs => rs) ∧
      (creations.Pairwise fun c d => c.1.time ≤ d.1.time) ∧ (creations.map (·.1.id)).Nodup ∧
      ((store .sorting).all created.2).1 = .ok (made.map Record.kept).reverse ∧
      ((store .sorting).named "cpu_usage" created.2).1 = .ok (made.map Record.kept).reverse ∧
      (made.map Record.kept).reverse.map Record.measurement ≠ made.map Record.measurement := by
  intro creations created made
  refine ⟨tabulates_sorting, by decide, by decide, ?_, ?_, by decide⟩
  · exact eq_ok_of_toOption (by decide +kernel)
  · exact eq_ok_of_toOption (by decide +kernel)

end Postgres

end MetricLedger
