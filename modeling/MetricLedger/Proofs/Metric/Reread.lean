import MetricLedger.Proofs.Json.Reread
import MetricLedger.Proofs.Metric.Record

/-!
# Records read back

A written record is read back as it was, but for its value, which is the number that the printed
digits form, scaled. The value is the same where neither the number nor the power of ten has to be
rounded; beyond that it may come back as a neighbour.
-/

namespace MetricLedger.Record

open Json

theorem verdict_toJson {r : Record} {s : Bytes} (h : Document r.toJson.tree s) :
    verdict shape.read s = shape.gather meanings r.members :=
  verdict_object meanings h

theorem readsValue_iff {x y : Double} (finite : x.isFinite) : ReadsValue x y ↔
    ∃ z, scaled? (printedDecimal x).digits (printedDecimal x).exponent = some z ∧
      y = signed x.isNegative z :=
  whole_numberText finite

/-- What a record with a finite value is read back as from its text on one line: itself, with the
value that its digits scale to and the time that its text is read as. Where the digits are exact
and the time can be written, it is read back as it was, from one line and from several lines, and
its value also when it stands alone. -/
theorem read_toJson (r : Record) (finite : r.value.isFinite) :
    (∀ read, whole shape.read (Bytes.ofString r.toJson.compact) = .ok read ↔
      ∃ x t, scaled? (printedDecimal r.value).digits (printedDecimal r.value).exponent = some x ∧
        Instant.parse r.createdAt.chars = .ok t ∧
        read = { r with value := signed r.value.isNegative x, createdAt := t }) ∧
    (Exact (printedDecimal r.value) → r.createdAt.Writable →
      whole shape.read (Bytes.ofString r.toJson.compact) = .ok r ∧
      whole shape.read (Bytes.ofString r.toJson.pretty) = .ok r ∧ ReadsValue r.value r.value) := by
  have compact := verdict_toJson r.toJson.document_compact
  have pretty := verdict_toJson r.toJson.document_pretty
  constructor
  · intro read
    rw [← verdict_eq_ok_iff, compact, gather_members, readsValue_iff finite]
    constructor
    · rintro ⟨id, name, type, time, x, scaled, value⟩
      refine ⟨x, read.createdAt, scaled, time, ?_⟩
      cases read
      cases r
      simp_all
    · rintro ⟨x, t, scaled, time, rfl⟩
      exact ⟨rfl, rfl, rfl, time, x, scaled, rfl⟩
  · intro exact writable
    have value : ReadsValue r.value r.value := whole_numberText_of_exact finite exact
    have gathered : shape.gather meanings r.members = .ok r :=
      gather_members.mpr ⟨rfl, rfl, rfl, Instant.parse_chars writable, value⟩
    exact ⟨verdict_eq_ok_iff.mp (compact.trans gathered),
      verdict_eq_ok_iff.mp (pretty.trans gathered), value⟩

/-- A negative value with decimals and a year of five digits are read back. -/
theorem read_toJson_fraction : whole shape.read (Bytes.ofString (toJson
    ⟨⟨1⟩, "a", "b", ⟨0xC046C00000000000⟩, ⟨300000000000, 5, by decide⟩⟩).pretty) =
      .ok ⟨⟨1⟩, "a", "b", ⟨0xC046C00000000000⟩, ⟨300000000000, 5, by decide⟩⟩ := by
  have writable : (⟨300000000000, 5, by decide⟩ : Instant).Writable := ⟨by decide⟩
  exact ((read_toJson ⟨⟨1⟩, "a", "b", ⟨0xC046C00000000000⟩, ⟨300000000000, 5, by decide⟩⟩
    (by decide +kernel)).2 (by decide +kernel) writable).2.1

/-- The largest odd number of 53 bits is printed with all its digits, but with the zero behind the
point they are one too many, and its lower neighbour is read. -/
theorem read_toJson_drifts :
    let r : Record :=
      ⟨⟨0⟩, "a", "b", ⟨0x433FFFFFFFFFFFFF⟩, ⟨1704067200, 0, by decide⟩⟩
    r.value.isFinite = true ∧ ∃ read,
      whole shape.read (Bytes.ofString r.toJson.compact) = .ok read ∧
        read.value = ⟨0x433FFFFFFFFFFFFE⟩ ∧ read ≠ r := by
  intro r
  have writable : r.createdAt.Writable := ⟨by decide⟩
  have value : ReadsValue r.value ⟨0x433FFFFFFFFFFFFE⟩ := eq_ok_of_toOption (by decide +kernel)
  have gathered : shape.gather meanings r.members =
      .ok { r with value := ⟨0x433FFFFFFFFFFFFE⟩ } :=
    gather_members.mpr ⟨rfl, rfl, rfl, Instant.parse_chars writable, value⟩
  have read := (verdict_toJson r.toJson.document_compact).trans gathered
  exact ⟨by decide, _, verdict_eq_ok_iff.mp read, rfl, by decide⟩

end MetricLedger.Record
