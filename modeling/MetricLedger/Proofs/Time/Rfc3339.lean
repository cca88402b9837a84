import MetricLedger.Proofs.Result
import MetricLedger.Proofs.Text.Digits
import MetricLedger.Proofs.Time.Calendar
import MetricLedger.Time.Rfc3339

/-!
# Reading written instants

An instant is read back from its text, with all its decimals and also within a leap second. Years
outside 0 to 9999, which RFC 3339 has no text for, are written and read with a sign.
-/

namespace MetricLedger.Instant

open Text (trimStart isWhite)
open Text.Digits (fixed padded span number isDigit isDigit_fixed span_append span_fixed
  number_fixed_of_lt fixed_cons isDigit_padded number_padded padded_ne_nil)

/-- An instant that RFC 3339 has a text for: its year has four digits, and only the last second of a
minute is followed by a leap second. -/
structure Civil (t : Instant) : Prop where
  year : 0 ≤ t.date.year ∧ t.date.year ≤ 9999
  fraction : t.nanos < 1000000000 ∨ t.seconds % 60 = 59

/-- An instant that has a text: a leap second, if it falls in one, ends a minute. -/
structure Writable (t : Instant) : Prop where
  fraction : t.nanos < 1000000000 ∨ t.seconds % 60 = 59

theorem Civil.writable {t : Instant} (h : t.Civil) : t.Writable := ⟨h.fraction⟩

/-- The seconds of an instant are just those of the known years. -/
theorem knownYear_iff (seconds : Int) :
    knownYear (Time.Date.ofDayNumber (seconds / 86400)).year = true ↔
      -8334601228800 ≤ seconds ∧ seconds ≤ 8210266876799 := by
  have year : (Time.Date.ofDayNumber (seconds / 86400)).year =
      Time.yearOf (seconds / 86400 + Time.epoch) := rfl
  have first : Time.yearStart (-262143) = -95745764 := by decide
  have next : Time.yearStart (262142 + 1) = 95745765 := by decide
  have upTo (y : Int) : y ≤ 262142 ↔ ¬ 262142 + 1 ≤ y := by omega
  simp only [knownYear, Bool.and_eq_true, decide_eq_true_eq, year, upTo, Time.le_yearOf_iff, first,
    next, Time.epoch]
  omega

theorem knownYear_date (t : Instant) : knownYear t.date.year = true :=
  (knownYear_iff t.seconds).mpr t.within.2

/-! ## Fields -/

theorem not_white_of_isDigit {c : Char} (h : isDigit c = true) : isWhite c = false := by
  simp only [isDigit, Bool.and_eq_true, decide_eq_true_eq] at h
  simp [isWhite]
  omega

theorem trimStart_fixed (width n : Nat) (rest : List Char) :
    trimStart (fixed (width + 1) n ++ rest) = fixed (width + 1) n ++ rest := by
  obtain ⟨c, cs, eq, digit⟩ := fixed_cons width n
  rw [eq, List.cons_append, trimStart,
    List.dropWhile_cons_of_neg (by rw [not_white_of_isDigit digit]; decide)]

theorem scanNumber_fixed (width : Nat) {n : Nat} (h : n < 10 ^ (width + 1)) (rest : List Char) :
    scanNumber (width + 1) (fixed (width + 1) n ++ rest) = .ok (n, rest) := by
  obtain ⟨c, cs, eq, -⟩ := fixed_cons width n
  have value := number_fixed_of_lt h
  rw [scanNumber, span_fixed]
  rw [eq] at value ⊢
  dsimp only
  rw [value]

theorem scanField_fixed {low high n : Nat} (h : low ≤ n ∧ n ≤ high) (bound : n < 100)
    (rest : List Char) : scanField low high (fixed 2 n ++ rest) = .ok (n, rest) := by
  rw [scanField, trimStart_fixed 1, scanNumber_fixed 1 bound]
  exact if_pos h

theorem scanMark_mark {mark : Char} (h : isWhite mark = false) (rest : List Char) :
    scanMark mark (mark :: rest) = .ok rest := by
  have kept : trimStart (mark :: rest) = mark :: rest :=
    List.dropWhile_cons_of_neg (by rw [h]; decide)
  rw [scanMark, kept]
  exact if_pos rfl

theorem scanYear_fixed {year : Int} (h : 0 ≤ year ∧ year ≤ 9999) (rest : List Char) :
    scanYear (yearText year ++ rest) = .ok (year, rest) := by
  have number := scanNumber_fixed 3 (show year.toNat < 10 ^ 4 by omega) rest
  have known : -2147483648 ≤ (year.toNat : Int) ∧ (year.toNat : Int) ≤ 2147483647 := by omega
  have same : (year.toNat : Int) = year := Int.toNat_of_nonneg h.1
  obtain ⟨c, cs, eq, digit⟩ := fixed_cons 3 year.toNat
  rw [scanYear, yearText, if_pos h, trimStart_fixed 3]
  rw [eq, List.cons_append] at number ⊢
  split
  · rename_i minus
    obtain ⟨rfl, -⟩ := List.cons.inj minus
    cases digit
  · rename_i plus
    obtain ⟨rfl, -⟩ := List.cons.inj plus
    cases digit
  · rw [number]
    change (if _ then _ else _) = _
    rw [if_pos known, same]

/-- A sign may stand before any number of digits, if the digits end before the text does. -/
theorem scanNumber_padded (width n : Nat) {c : Char} (stop : isDigit c = false)
    (rest : List Char) : scanNumber (padded width n ++ c :: rest).length
      (padded width n ++ c :: rest) = .ok (n, c :: rest) := by
  have spanned := span_append (isDigit_padded width n)
    (show (padded width n).length ≤ (padded width n ++ c :: rest).length by simp)
    (.inr ⟨c, rest, rfl, stop⟩)
  have value := number_padded width n
  obtain ⟨d, ds, digits⟩ := List.exists_cons_of_ne_nil (padded_ne_nil width n)
  rw [scanNumber, spanned]
  rw [digits] at value ⊢
  dsimp only
  rw [value]

theorem scanYear_text {year : Int} (h : knownYear year = true) (rest : List Char) :
    scanYear (yearText year ++ '-' :: rest) = .ok (year, '-' :: rest) := by
  simp only [knownYear, Bool.and_eq_true, decide_eq_true_eq] at h
  by_cases civil : 0 ≤ year ∧ year ≤ 9999
  · exact scanYear_fixed civil _
  · have number := scanNumber_padded 4 year.natAbs (show isDigit '-' = false from rfl) rest
    rw [yearText, if_neg civil, scanYear]
    by_cases below : year < 0
    · have same : -(year.natAbs : Int) = year := by omega
      have kept (cs : List Char) : trimStart ('-' :: cs) = '-' :: cs := rfl
      rw [if_pos below, List.cons_append, kept]
      simp only [number, ok_bind, same]
      rw [if_pos (by omega)]
    · have same : (year.natAbs : Int) = year := by omega
      have kept (cs : List Char) : trimStart ('+' :: cs) = '+' :: cs := rfl
      rw [if_neg below, List.cons_append, kept]
      simp only [number, ok_bind, same]
      rw [if_pos (by omega)]

theorem scanFraction_fixed {width n : Nat} (h : n < 10 ^ (width + 1)) (fits : width + 1 ≤ 9)
    (rest : List Char) : scanFraction ('.' :: fixed (width + 1) n ++ 'Z' :: rest) =
      .ok (n * 10 ^ (9 - (width + 1)), 'Z' :: rest) := by
  have length := Text.Digits.length_fixed (width + 1) n
  have spanned := span_append (isDigit_fixed (width + 1) n) (length.symm ▸ fits)
    (.inr ⟨'Z', rest, rfl, rfl⟩)
  have value := number_fixed_of_lt h
  obtain ⟨c, cs, eq, -⟩ := fixed_cons width n
  rw [List.cons_append, scanFraction, spanned]
  rw [eq] at value length ⊢
  dsimp only
  rw [value, length]
  rfl

theorem scanFraction_text {nanos : Nat} (h : nanos < 1000000000) (rest : List Char) :
    scanFraction (fractionText nanos ++ 'Z' :: rest) = .ok (nanos, 'Z' :: rest) := by
  unfold fractionText
  split
  · rename_i zero
    rw [zero]
    rfl
  · split
    · have exact : nanos / 1000000 * 10 ^ (9 - (2 + 1)) = nanos := by omega
      rw [scanFraction_fixed (show nanos / 1000000 < 10 ^ (2 + 1) by omega) (by decide), exact]
    · split
      · have exact : nanos / 1000 * 10 ^ (9 - (5 + 1)) = nanos := by omega
        rw [scanFraction_fixed (show nanos / 1000 < 10 ^ (5 + 1) by omega) (by decide), exact]
      · rw [scanFraction_fixed (show nanos < 10 ^ (8 + 1) by omega) (by decide)]
        simp

/-! ## Instants -/

/-- A date and a time of day as they are written. -/
def fields (date : Time.Date) (hour minute second nanos : Nat) : List Char :=
  yearText date.year ++ ('-' :: (fixed 2 date.month ++ ('-' :: (fixed 2 date.day ++
    ('T' :: (fixed 2 hour ++ (':' :: (fixed 2 minute ++ (':' :: (fixed 2 second ++
    (fractionText nanos ++ ['Z'])))))))))))

theorem parse_fields {date : Time.Date} {hour minute second nanos : Nat}
    (year : knownYear date.year = true) (month : 1 ≤ date.month ∧ date.month ≤ 12)
    (day : 1 ≤ date.day ∧ date.day ≤ 31) (h : hour ≤ 23) (m : minute ≤ 59) (s : second ≤ 60)
    (n : nanos < 1000000000) : parse (fields date hour minute second nanos) =
      ofLocal date hour minute second nanos 0 := by
  have hyphen := scanMark_mark (show isWhite '-' = false by decide)
  have colon := scanMark_mark (show isWhite ':' = false by decide)
  have offset : scanOffset (trimStart ['Z']) = .ok (0, []) := rfl
  have ending : (trimStart []).isEmpty = true := rfl
  have month := scanField_fixed month (by omega)
  have day := scanField_fixed day (by omega)
  have hour := scanField_fixed ⟨Nat.zero_le _, h⟩ (by omega)
  have minute := scanField_fixed ⟨Nat.zero_le _, m⟩ (by omega)
  have second := scanField_fixed ⟨Nat.zero_le _, s⟩ (by omega)
  simp only [parse, fields, scanYear_text year, ok_bind, hyphen, colon, month, day, hour, minute,
    second, scanFraction_text n, offset, ending, true_or, if_true, if_pos n]

theorem chars_of_lt {t : Instant} (h : t.nanos < 1000000000) : t.chars = fields t.date
    (t.secondOfDay / 3600) (t.secondOfDay / 60 % 60) (t.secondOfDay % 60) t.nanos := by
  simp only [chars, charsWith, fields, if_pos h, List.append_assoc, List.cons_append]

theorem chars_of_le {t : Instant} (h : 1000000000 ≤ t.nanos) : t.chars = fields t.date
    (t.secondOfDay / 3600) (t.secondOfDay / 60 % 60) (t.secondOfDay % 60 + 1)
    (t.nanos - 1000000000) := by
  simp only [chars, charsWith, fields, if_neg (Nat.not_lt.mpr h), List.append_assoc,
    List.cons_append]

/-- The seconds of a day are put together again from its date and the time of day. -/
theorem seconds_eq (t : Instant) : t.date.dayNumber * 86400 + (t.secondOfDay / 3600 : Nat) * 3600 +
    (t.secondOfDay / 60 % 60 : Nat) * 60 + (t.secondOfDay % 60 : Nat) - 0 * 60 = t.seconds := by
  have day : t.date.dayNumber = t.seconds / 86400 := Time.dayNumber_ofDayNumber _
  rw [day]
  unfold secondOfDay
  omega

theorem ofLocal_date (t : Instant) :
    ofLocal t.date (t.secondOfDay / 3600) (t.secondOfDay / 60 % 60) (t.secondOfDay % 60) t.nanos 0 =
      .ok t := by
  have exist := (Time.exists_ofDayNumber (t.seconds / 86400)).1
  have leap : (t.secondOfDay % 60 == 60) = false := by simp; omega
  have made : ofSeconds? t.seconds t.nanos = some t := ofSeconds?_eq_some_iff.mpr ⟨rfl, rfl⟩
  rw [ofLocal, if_neg (fun no => no ⟨exist, t.knownYear_date⟩), if_neg (by decide)]
  simp only [leap, if_false, Bool.false_eq_true, seconds_eq, made]

theorem ofLocal_leap {t : Instant} (h : t.Writable) (leap : 1000000000 ≤ t.nanos) :
    ofLocal t.date (t.secondOfDay / 3600) (t.secondOfDay / 60 % 60) (t.secondOfDay % 60 + 1)
      (t.nanos - 1000000000) 0 = .ok t := by
  have exist := (Time.exists_ofDayNumber (t.seconds / 86400)).1
  -- The text says 60 for the second that is 59 with a billion nanoseconds too many.
  have last : t.secondOfDay % 60 = 59 := by
    have := h.fraction
    unfold secondOfDay
    omega
  have seconds := seconds_eq t
  have made : ofSeconds? t.seconds t.nanos = some t := ofSeconds?_eq_some_iff.mpr ⟨rfl, rfl⟩
  rw [last] at seconds ⊢
  rw [ofLocal, if_neg (fun no => no ⟨exist, t.knownYear_date⟩), if_neg (by decide)]
  simp only [beq_self_eq_true, if_true, seconds, Nat.sub_add_cancel leap, made]

theorem parse_chars {t : Instant} (h : t.Writable) : parse t.chars = .ok t := by
  obtain ⟨exist, month, day⟩ := Time.exists_ofDayNumber (t.seconds / 86400)
  have within : t.secondOfDay < 86400 := by unfold secondOfDay; omega
  have bound := t.nanos_lt
  by_cases plain : t.nanos < 1000000000
  · rw [chars_of_lt plain, parse_fields t.knownYear_date ⟨exist.1, month⟩ ⟨exist.2.1, day⟩
      (by omega) (by omega) (by omega) plain]
    exact ofLocal_date t
  · have leap := Nat.not_lt.mp plain
    rw [chars_of_le leap, parse_fields t.knownYear_date ⟨exist.1, month⟩ ⟨exist.2.1, day⟩
      (by omega) (by omega) (by omega) (by omega)]
    exact ofLocal_leap h leap

end MetricLedger.Instant
