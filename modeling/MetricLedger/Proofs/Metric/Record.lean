import MetricLedger.Metric.Record
import MetricLedger.Proofs.Json.Fields
import MetricLedger.Proofs.Json.Printed
import MetricLedger.Proofs.Json.Unambiguity
import MetricLedger.Proofs.Time.Rfc3339
import MetricLedger.Proofs.Uuid

/-!
# Reading written records

Everything about a record but its value is read back from its text exactly, whatever its texts
contain and however the text is laid out. What becomes of the value is settled by the text of the
value alone.
-/

namespace MetricLedger.Record

open Json

def meanings : Meanings shape.columns :=
  (inferInstanceAs (Meaning Uuid), inferInstanceAs (Meaning String),
    inferInstanceAs (Meaning String), inferInstanceAs (Meaning Double),
    inferInstanceAs (Meaning Instant), ())

/-- The members of a written record. -/
def members (r : Record) : List (String × Tree) :=
  [("id", .text r.id.text), ("metric_name", .text r.name), ("metric_type", .text r.type),
    ("value", (Value.number r.value).tree), ("created_at", .text r.createdAt.text)]

theorem meaning_id (u : Uuid) : Meaning.of (.text u.text) = .ok u := by
  rw [Meaning.uuid_text, Uuid.text, String.toList_ofList, u.parse_chars]
  rfl

/-- Reading the text of a value, alone, gives a number. -/
def ReadsValue (x y : Double) : Prop := whole Scalar.read (Bytes.ofString (numberText x)) = .ok y

/-- What a record is read back as: itself, with the value that the text of its value is read as. -/
structure ReadsAs (r read : Record) : Prop where
  id : read.id = r.id
  name : read.name = r.name
  type : read.type = r.type
  createdAt : read.createdAt = r.createdAt
  value : ReadsValue r.value read.value

theorem meaning_value {x y : Double} :
    Meaning.of (Value.number x).tree = .ok y ↔ ReadsValue x y := by
  have written := written_number x []
  rw [List.append_nil] at written
  rw [← Meaning.verdict_eq ⟨.none, written, .none⟩]
  exact verdict_eq_ok_iff

theorem covers_members (r : Record) : shape.Covers r.members := by
  have keys : r.members.map Prod.fst = shape.keys := rfl
  exact .inr fun m mem => keys ▸ List.mem_map_of_mem mem

theorem meaning_text_time {t u : Instant} :
    Meaning.of (.text t.text) = .ok u ↔ Instant.parse t.chars = .ok u := by
  rw [Meaning.instant_text, Instant.text, String.toList_ofList]
  exact mapError_eq_ok_iff

/-- The members of a record are read each for itself. -/
theorem gather_members {r read : Record} :
    shape.gather meanings r.members = .ok read ↔ read.id = r.id ∧ read.name = r.name ∧
      read.type = r.type ∧ Instant.parse r.createdAt.chars = .ok read.createdAt ∧
      ReadsValue r.value read.value := by
  rw [Json.gather_eq_ok_iff (covers_members r) (by decide)]
  constructor
  · rintro ⟨⟨_ | id, _ | name, _ | type, _ | value, _ | time, ⟨⟩⟩, fields, fills, perm, concluded⟩
    all_goals try cases concluded
    obtain ⟨v, _, rfl, hid, w, _, rfl, hname, x, _, rfl, htype, y, _, rfl, hvalue, z, _, rfl, htime,
      rfl⟩ := fills
    -- Both lists have the keys of the shape in order, so that no member can be in another's place.
    have same := eq_of_perm_of_keys perm rfl (show shape.keys.Nodup by decide)
    simp only [members, column, List.cons.injEq, Prod.mk.injEq, true_and, and_true] at same
    obtain ⟨rfl, rfl, rfl, rfl, rfl⟩ := same
    refine ⟨?_, ?_, ?_, meaning_text_time.mp htime, meaning_value.mp hvalue⟩
    · exact (Except.ok.inj ((meaning_id r.id).symm.trans hid)).symm
    · exact Except.ok.inj hname.symm
    · exact Except.ok.inj htype.symm
  · rintro ⟨id, name, type, time, value⟩
    refine ⟨(some read.id, some read.name, some read.type, some read.value, some read.createdAt,
      ()), r.members, ?_, .refl _, rfl⟩
    refine ⟨_, _, rfl, ?_, _, _, rfl, ?_, _, _, rfl, ?_, _, _, rfl,
      meaning_value.mpr value, _, _, rfl, meaning_text_time.mpr time, rfl⟩
    · rw [id]; exact meaning_id r.id
    · rw [name]; rfl
    · rw [type]; rfl

theorem gather_eq_ok_iff {r read : Record} (civil : r.createdAt.Civil) :
    shape.gather meanings r.members = .ok read ↔ r.ReadsAs read := by
  rw [gather_members, Instant.parse_chars civil.writable]
  constructor
  · rintro ⟨id, name, type, time, value⟩
    exact ⟨id, name, type, (Except.ok.inj time).symm, value⟩
  · rintro ⟨id, name, type, time, value⟩
    exact ⟨id, name, type, congrArg Except.ok time.symm, value⟩

/-- The text is one of an object with the members of the record, and of nothing else. -/
def IsTold (r : Record) (text : String) : Prop :=
  ∀ x, Document x (Bytes.ofString text) ↔ x = .object r.members

theorem isTold_line (r : Record) : r.IsTold s!"{r.toJson.pretty}\n" :=
  fun _ => r.toJson.document_line.iff_eq

/-! ## Lists -/

/-- The text is one of the list of such objects, in the order of the records, and of nothing
else. -/
def AreTold (rs : List Record) (text : String) : Prop :=
  ∀ x, Document x (Bytes.ofString text) ↔ x = .list (rs.map fun r => .object r.members)

theorem tree_listJson (rs : List Record) :
    (listJson rs).tree = .list (rs.map fun r => .object r.members) := by
  have items : itemTrees (rs.map toJson) = rs.map fun r => .object r.members := by
    induction rs with
    | nil => rfl
    | cons r rs ih => rw [List.map_cons, itemTrees, ih]; rfl
  rw [listJson, Value.tree, items]

theorem areTold_of_document {rs : List Record} {text : String}
    (h : Document (listJson rs).tree (Bytes.ofString text)) : AreTold rs text :=
  fun _ => tree_listJson rs ▸ h.iff_eq

theorem areTold_compact (rs : List Record) : AreTold rs (listJson rs).compact :=
  areTold_of_document (listJson rs).document_compact

theorem areTold_line (rs : List Record) : AreTold rs s!"{(listJson rs).pretty}\n" :=
  areTold_of_document (listJson rs).document_line

theorem verdict_listJson {rs : List Record} {s : Bytes} (h : Document (listJson rs).tree s) :
    verdict shape.readList s = (rs.map members).mapM (shape.gather meanings) := by
  rw [tree_listJson, ← Function.comp_def Tree.object, ← List.map_map] at h
  exact verdict_list meanings h

theorem readsAs_of_gather {rs read : List Record} (civil : ∀ r ∈ rs, r.createdAt.Civil)
    (h : List.Forall₂ (fun r read => shape.gather meanings r.members = .ok read) rs read) :
    List.Forall₂ ReadsAs rs read := by
  induction h with
  | nil => exact .nil
  | cons first _ ih =>
    have head := (gather_eq_ok_iff (civil _ (List.mem_cons_self ..))).mp first
    exact .cons head (ih fun r mem => civil r (List.mem_cons_of_mem _ mem))

/-- Records are read back from one line and from several lines alike. They are read if the texts of
their values are, and then each of them is read in its place, with nothing changed but, if at all,
its value. -/
theorem readList_listJson {rs : List Record} (civil : ∀ r ∈ rs, r.createdAt.Civil) :
    (whole shape.readList (Bytes.ofString (listJson rs).pretty)).mapError Located.cause =
      (whole shape.readList (Bytes.ofString (listJson rs).compact)).mapError Located.cause ∧
    ((∃ read, whole shape.readList (Bytes.ofString (listJson rs).compact) = .ok read) ↔
      ∀ r ∈ rs, ∃ x, ReadsValue r.value x) ∧
    ∀ read, whole shape.readList (Bytes.ofString (listJson rs).compact) = .ok read →
      List.Forall₂ ReadsAs rs read := by
  have compact := verdict_listJson (listJson rs).document_compact
  have pretty := verdict_listJson (listJson rs).document_pretty
  refine ⟨pretty.trans compact.symm, ?_, ?_⟩
  · simp only [← verdict_eq_ok_iff, compact, exists_mapM_iff]
    constructor
    · intro h r mem
      obtain ⟨read, gathered⟩ := h _ (List.mem_map_of_mem mem)
      exact ⟨read.value, ((gather_eq_ok_iff (civil r mem)).mp gathered).value⟩
    · intro h ms mem
      obtain ⟨r, among, rfl⟩ := List.mem_map.mp mem
      obtain ⟨x, value⟩ := h r among
      exact ⟨{ r with value := x }, (gather_eq_ok_iff (civil r among)).mpr
        ⟨rfl, rfl, rfl, rfl, value⟩⟩
  · intro read h
    rw [← verdict_eq_ok_iff, compact, mapM_eq_ok_iff, List.forall₂_map_left_iff] at h
    exact readsAs_of_gather civil h

/-- Marks in a name, a type outside ASCII and a time within a leap second are read back. -/
theorem readList_leap : ∃ read, whole shape.readList (Bytes.ofString (listJson
      [⟨⟨1⟩, "a\"\n\\", "\u03bc", ⟨0⟩, ⟨59, 1500000000, by decide⟩⟩]).pretty) = .ok read ∧
    List.Forall₂ ReadsAs [⟨⟨1⟩, "a\"\n\\", "\u03bc", ⟨0⟩, ⟨59, 1500000000, by decide⟩⟩] read := by
  have time : (⟨59, 1500000000, by decide⟩ : Instant).Civil := ⟨by decide, by decide⟩
  have value : ReadsValue ⟨0⟩ ⟨0⟩ := eq_ok_of_toOption (by decide +kernel)
  obtain ⟨same, succeeds, records⟩ := @readList_listJson
    [⟨⟨1⟩, "a\"\n\\", "\u03bc", ⟨0⟩, ⟨59, 1500000000, by decide⟩⟩]
    fun r mem => List.mem_singleton.mp mem ▸ time
  obtain ⟨read, compact⟩ := succeeds.mpr fun r mem => List.mem_singleton.mp mem ▸ ⟨⟨0⟩, value⟩
  have pretty := same.trans (mapError_eq_ok_iff.mpr compact)
  exact ⟨read, mapError_eq_ok_iff.mp pretty, records read compact⟩

end MetricLedger.Record
