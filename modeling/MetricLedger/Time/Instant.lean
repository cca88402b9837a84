import MetricLedger.Time.Calendar

/-!
# Instants

A point of universal time: whole seconds since 1970 and nanoseconds. During a leap second the
nanoseconds run on past the first thousand million. The calendar has a first and a last year, and no
instant lies outside them.
-/

namespace MetricLedger

/-- The seconds are those of the years from -262143 to 262142. -/
structure Instant where
  seconds : Int
  nanos : Nat
  within : nanos < 2000000000 ∧ -8334601228800 ≤ seconds ∧ seconds ≤ 8210266876799 := by omega
deriving DecidableEq, Repr

namespace Instant

theorem nanos_lt (t : Instant) : t.nanos < 2000000000 := t.within.1

/-- The instant of some second and nanosecond, if the calendar has it. -/
def ofSeconds? (seconds : Int) (nanos : Nat) : Option Instant :=
  if within : nanos < 2000000000 ∧ -8334601228800 ≤ seconds ∧ seconds ≤ 8210266876799 then
    some ⟨seconds, nanos, within⟩
  else none

instance : Inhabited Instant := ⟨⟨0, 0, by decide⟩⟩

/-- The order of time. -/
def le (a b : Instant) : Prop := a.seconds < b.seconds ∨ (a.seconds = b.seconds ∧ a.nanos ≤ b.nanos)

instance : LE Instant := ⟨le⟩

instance (a b : Instant) : Decidable (a ≤ b) :=
  inferInstanceAs (Decidable (a.seconds < b.seconds ∨ (a.seconds = b.seconds ∧ a.nanos ≤ b.nanos)))

def date (t : Instant) : Time.Date := Time.Date.ofDayNumber (t.seconds / 86400)

/-- The seconds since midnight. -/
def secondOfDay (t : Instant) : Nat := (t.seconds % 86400).toNat

/-- The seconds from 1970 to the year 2000, from which databases count. -/
def databaseEpoch : Int := 946684800

/-- Cut to whole microseconds, as a database keeps it: the count of them since 1970. What is cut off
is cut off towards the year 2000. -/
def micros (t : Instant) : Int :=
  ((t.seconds - databaseEpoch) * 1000000000 + t.nanos).tdiv 1000 + databaseEpoch * 1000000

/-- The instant that a database counts so many microseconds for, if there is one. -/
def ofMicros? (n : Int) : Option Instant :=
  ofSeconds? (n / 1000000) ((n % 1000000).toNat * 1000)

/-- An instant as it comes back from a database. The leap second at the end of the last year, which
does not come back, is kept whole here. -/
def kept (t : Instant) : Instant := (ofMicros? t.micros).getD t

theorem le_refl (a : Instant) : a ≤ a := Or.inr ⟨rfl, Nat.le_refl _⟩

theorem le_trans {a b c : Instant} (h : a ≤ b) (k : b ≤ c) : a ≤ c := by
  change a.le b at h; change b.le c at k; change a.le c
  unfold le at *; omega

theorem micros_mono {a b : Instant} (ha : a.nanos < 1000000000) (h : a ≤ b) :
    a.micros ≤ b.micros := by
  have nanos : (a.seconds - databaseEpoch) * 1000000000 + a.nanos ≤
      (b.seconds - databaseEpoch) * 1000000000 + b.nanos := by
    change a.le b at h
    unfold le at h
    omega
  exact Int.add_le_add_right (Int.tdiv_le_tdiv (by decide) nanos) _

theorem ofSeconds?_eq_some_iff {seconds : Int} {nanos : Nat} {t : Instant} :
    ofSeconds? seconds nanos = some t ↔ t.seconds = seconds ∧ t.nanos = nanos := by
  unfold ofSeconds?
  constructor
  · intro h
    obtain ⟨within, same⟩ := Option.dite_none_right_eq_some.mp h
    cases same
    exact ⟨rfl, rfl⟩
  · rintro ⟨rfl, rfl⟩
    exact dif_pos t.within

theorem micros_of_ofMicros? {n : Int} {t : Instant} (h : ofMicros? n = some t) : t.micros = n := by
  obtain ⟨seconds, nanos⟩ := ofSeconds?_eq_some_iff.mp h
  have count : (n / 1000000 - databaseEpoch) * 1000000000 + ((n % 1000000).toNat * 1000 : Nat) =
      (n - databaseEpoch * 1000000) * 1000 := by omega
  rw [micros, seconds, nanos, count, Int.mul_tdiv_cancel _ (by decide), Int.sub_add_cancel]

@[simp] theorem micros_kept (t : Instant) : t.kept.micros = t.micros := by
  unfold kept
  cases found : ofMicros? t.micros with
  | none => rfl
  | some u => exact micros_of_ofMicros? found

@[simp] theorem kept_kept (t : Instant) : t.kept.kept = t.kept := by
  rw [kept, micros_kept]
  unfold kept
  cases ofMicros? t.micros <;> rfl

/-- Outside leap seconds every instant comes back from a database. -/
theorem ofMicros?_micros {t : Instant} (plain : t.nanos < 1000000000) :
    ofMicros? t.micros = some t.kept := by
  obtain ⟨-, begun, ended⟩ := t.within
  have first : micros ⟨-8334601228800, 0, by decide⟩ ≤ t.micros :=
    micros_mono (by decide) (show Instant.le _ t by unfold le; dsimp only; omega)
  have last : t.micros ≤ micros ⟨8210266876799, 999999999, by decide⟩ :=
    micros_mono plain (show t.le _ by unfold le; dsimp only; omega)
  have least : micros ⟨-8334601228800, 0, by decide⟩ = -8334601228800000000 := by decide
  have most : micros ⟨8210266876799, 999999999, by decide⟩ = 8210266876799999999 := by decide
  have found : ∃ u, ofMicros? t.micros = some u :=
    ⟨⟨t.micros / 1000000, (t.micros % 1000000).toNat * 1000, by omega⟩,
      ofSeconds?_eq_some_iff.mpr ⟨rfl, rfl⟩⟩
  obtain ⟨u, found⟩ := found
  rw [kept, found, Option.getD_some]

end Instant

end MetricLedger
