import MetricLedger.Proofs.Json.Meaning
import MetricLedger.Proofs.Json.NumberText
import MetricLedger.Proofs.Json.Range
import MetricLedger.Proofs.Number.Shortest

/-!
# Reading written doubles

All digits that are printed for a double, zeros that only fill up included, are read into one whole
number, and the place of the last of them is its power of ten. That number is then scaled, which
may round twice; where neither the number nor the power of ten has to be rounded, the double itself
comes back.
-/

namespace MetricLedger.Json

open Text.Utf8 (encode)
open Text.Digits (number le_number number_cons number_append number_zeros isDigit_zeros
  isDigit_append)

/-- The number that the printed digits of a double form, with the place of the last of them. -/
def printedDecimal (x : Double) : Decimal :=
  let d := x.shortest
  if 0 ≤ d.exponent ∧ d.text.length + d.exponent ≤ 16 then
    ⟨d.digits * 10 ^ (d.exponent.toNat + 1), -1⟩
  else d

/-! ## Reading digits -/

theorem digitValue_ascii {c : Char} (h : Text.Digits.isDigit c = true) :
    digitValue (ascii c) = Text.Digits.value c := by
  have small := (isDigit_ascii h).2
  rw [digitValue, Text.Utf8.toNat_toUInt8 (by omega)]
  rfl

/-- A number that fits is absorbed with all its digits. -/
theorem absorb_number {limit n : ℕ} {cs : List Char}
    (digits : ∀ c ∈ cs, Text.Digits.isDigit c = true) (fits : number n cs ≤ limit) {t : Bytes}
    (stop : startsDigit t = false) : absorb limit n (encode cs ++ t) = (number n cs, t) := by
  rw [encode_digits digits]
  induction cs generalizing n with
  | nil =>
    rw [List.map_nil, absorb_append _ _ _ stop]
    rfl
  | cons c cs ih =>
    obtain ⟨digit, others⟩ := List.forall_mem_cons.mp digits
    have within := Nat.le_trans (le_number (n * 10 + Text.Digits.value c) cs) fits
    rw [List.map_cons, List.cons_append, absorb, (isDigit_ascii digit).1, digitValue_ascii digit]
    simp only [Bool.true_and, decide_eq_true within, if_true]
    exact ih others fits

/-! ## Reading the parts of a number -/

theorem dropDigits_of_stop {t : Bytes} (stop : startsDigit t = false) : t.dropWhile isDigit = t :=
  @dropDigits_append [] t (by simp) stop

section
variable (negative : Bool)

theorem readNumeral_whole {whole : List Char} (leading : Leading whole ∨ whole = ['0'])
    (fits : number 0 whole ≤ 2 ^ 64 - 1) {t : Bytes} (stop : startsDigit t = false) :
    readNumeral negative (encode whole ++ t) = readAfterWhole negative (number 0 whole) 0 t := by
  rcases leading with ⟨some, all, head⟩ | rfl
  · obtain ⟨c, cs, rfl⟩ := List.exists_cons_of_ne_nil some
    obtain ⟨digit, others⟩ := List.forall_mem_cons.mp all
    have nonzero : ascii c ≠ ascii '0' := by
      refine ascii_ne (isDigit_ascii digit).2 (by decide) ?_
      rintro rfl
      exact head rfl
    rw [number_cons] at fits ⊢
    rw [Text.Utf8.encode_cons, Text.Utf8.encodeChar_ascii (isDigit_ascii digit).2,
      List.append_assoc, List.singleton_append, readNumeral, if_neg nonzero,
      (isDigit_ascii digit).1, digitValue_ascii digit, absorb_number others fits stop]
    simp only [if_true, dropDigits_of_stop stop, Nat.sub_self]
  · have zero : encode ['0'] ++ t = ascii '0' :: t := rfl
    rw [zero, readNumeral, if_pos rfl, stop]
    rfl

theorem readFraction_number {fraction : List Char}
    (digits : ∀ c ∈ fraction, Text.Digits.isDigit c = true) (nonempty : fraction ≠ []) {n : ℕ}
    (fits : number n fraction ≤ 2 ^ 64 - 1) {t : Bytes} (stop : startsDigit t = false) :
    readFraction negative n 0 (encode fraction ++ t) =
      readScale negative (number n fraction) (-fraction.length) t := by
  have starts := (digits_encode nonempty digits).startsDigit_append t
  have length : (encode fraction ++ t).length - t.length = fraction.length := by
    rw [encode_digits digits, List.length_append, List.length_map, Nat.add_sub_cancel]
  rw [readFraction, if_pos starts, absorb_number digits fits stop]
  simp only [dropDigits_of_stop stop, length, zero_sub]

/-- A number with a point is read digit by digit, up to its exponent. -/
theorem readNumeral_point {whole fraction : List Char} (leading : Leading whole ∨ whole = ['0'])
    (digits : ∀ c ∈ fraction, Text.Digits.isDigit c = true) (nonempty : fraction ≠ [])
    (fits : number 0 (whole ++ fraction) ≤ 2 ^ 64 - 1) {t : Bytes} (stop : startsDigit t = false) :
    readNumeral negative (encode (whole ++ '.' :: fraction) ++ t) =
      readScale negative (number 0 (whole ++ fraction)) (-fraction.length) t := by
  rw [number_append] at fits ⊢
  have point : startsDigit (ascii '.' :: (encode fraction ++ t)) = false := by
    rw [startsDigit_cons]
    decide
  have front := readNumeral_whole negative leading (Nat.le_trans (le_number _ _) fits) point
  have text : encode (whole ++ '.' :: fraction) ++ t =
      encode whole ++ (ascii '.' :: (encode fraction ++ t)) := by
    rw [Text.Utf8.encode_append, List.append_assoc]
    rfl
  rw [text, front, readAfterWhole, if_pos rfl]
  exact readFraction_number negative digits nonempty fits stop

theorem readScale_end (n : ℕ) (place : ℤ) :
    readScale negative n place [] = endDouble negative n place [] := rfl

/-- An exponent with its sign is added to the place. -/
theorem readScale_power (n : ℕ) (place exponent : ℤ) (fits : exponent.natAbs ≤ 2147483647) :
    readScale negative n place (encode ('e' :: (if exponent < 0 then '-' else '+') ::
      Text.Digits.plain exponent.natAbs)) = endDouble negative n (place + exponent) [] := by
  have all := Text.Digits.isDigit_plain exponent.natAbs
  have value := Text.Digits.number_plain exponent.natAbs
  obtain ⟨c, cs, plain⟩ := List.exists_cons_of_ne_nil (Text.Digits.plain_ne_nil exponent.natAbs)
  rw [plain] at all value ⊢
  obtain ⟨digit, others⟩ := List.forall_mem_cons.mp all
  rw [number_cons] at value
  have absorbed := absorb_number others (value.le.trans fits) (show startsDigit [] = false from rfl)
  rw [List.append_nil] at absorbed
  have digitsRead (up : Bool) : readExponentDigits negative n place up (encode (c :: cs)) =
      endDouble negative n
        (if up then place + exponent.natAbs else place - exponent.natAbs) [] := by
    rw [Text.Utf8.encode_cons, Text.Utf8.encodeChar_ascii (isDigit_ascii digit).2,
      List.singleton_append, readExponentDigits, if_pos (isDigit_ascii digit).1,
      digitValue_ascii digit, absorbed, value]
    rfl
  by_cases below : exponent < 0
  · rw [if_pos below]
    have size : place - exponent.natAbs = place + exponent := by omega
    have read := digitsRead false
    rw [if_neg (by decide), size] at read
    exact read
  · rw [if_neg below]
    have size : place + exponent.natAbs = place + exponent := by omega
    have read := digitsRead true
    rw [if_pos rfl, size] at read
    exact read

end

/-! ## Reading notations -/

section
variable (negative : Bool) {digits : List Char} (leading : Leading digits)
include leading

/-- The digits in positional notation, those included that only fill up, and their place. -/
theorem readNumeral_positional (point : ℤ)
    (fits : number 0 digits * 10 ^ (point - digits.length + 1).toNat ≤ 2 ^ 64 - 1) :
    readNumeral negative (encode (positional digits point)) =
      if digits.length ≤ point then
        endDouble negative (number 0 digits * 10 ^ (point - digits.length + 1).toNat) (-1) []
      else endDouble negative (number 0 digits) (point - digits.length) [] := by
  obtain ⟨nonempty, all, head⟩ := id leading
  have size := List.length_pos_iff.mpr nonempty
  have stop : startsDigit [] = false := rfl
  have plain : number 0 digits ≤ 2 ^ 64 - 1 :=
    Nat.le_trans (Nat.le_mul_of_pos_right _ (Nat.pow_pos (by decide))) fits
  unfold positional
  split
  · have value : number 0 (['0'] ++ (List.replicate (-point).toNat '0' ++ digits)) =
        number 0 digits := by
      have zeros := number_zeros 0 (-point).toNat
      rw [Nat.zero_mul] at zeros
      rw [number_append, number_append]
      exact congrArg (number · digits) zeros
    have read := readNumeral_point negative (.inr rfl) (isDigit_append (isDigit_zeros _) all)
      (List.append_ne_nil_of_right_ne_nil _ nonempty) (value.trans_le plain) stop
    have place : -((List.replicate (-point).toNat '0' ++ digits).length : ℤ) =
        point - digits.length := by
      rw [List.length_append, List.length_replicate]
      omega
    rw [List.append_nil, value, place, readScale_end] at read
    rw [if_neg (by omega)]
    exact read
  · split
    · rename_i filled
      have value : number 0 (digits ++ List.replicate (point.toNat - digits.length) '0' ++ ['0']) =
          number 0 digits * 10 ^ (point - digits.length + 1).toNat := by
        rw [show (point - digits.length + 1).toNat = point.toNat - digits.length + 1 by omega,
          List.append_assoc, ← List.replicate_succ', number_append, number_zeros]
      have padded : Leading (digits ++ List.replicate (point.toNat - digits.length) '0') := by
        refine ⟨List.append_ne_nil_of_left_ne_nil nonempty _, isDigit_append all (isDigit_zeros _),
          ?_⟩
        rwa [List.head?_append_of_ne_nil _ nonempty]
      have read := @readNumeral_point negative _ ['0'] (.inl padded) (isDigit_zeros 1)
        (List.cons_ne_nil _ _) (value.trans_le fits) [] stop
      rw [List.append_nil, value, readScale_end] at read
      exact read
    · rename_i inside
      have within : point.toNat < digits.length := by omega
      have front : Leading (digits.take point.toNat) := by
        refine ⟨?_, fun c mem => all c (List.mem_of_mem_take mem), ?_⟩
        · intro nil
          rcases List.take_eq_nil_iff.mp nil with none | none
          · omega
          · exact nonempty none
        · rwa [List.head?_take, if_neg (by omega)]
      have rest : digits.drop point.toNat ≠ [] := by
        intro nil
        have := List.drop_eq_nil_iff.mp nil
        omega
      have value : number 0 (digits.take point.toNat ++ digits.drop point.toNat) =
          number 0 digits := by
        rw [List.take_append_drop]
      have read := readNumeral_point negative (.inl front)
        (fun c mem => all c (List.mem_of_mem_drop mem)) rest (value.trans_le plain) stop
      have place : -((digits.drop point.toNat).length : ℤ) = point - digits.length := by
        rw [List.length_drop]
        omega
      rw [List.append_nil, value, place, readScale_end] at read
      exact read

/-- The digits in scientific notation and their place. -/
theorem readNumeral_scientific (exponent : ℤ) (small : exponent.natAbs ≤ 2147483647)
    (fits : number 0 digits ≤ 2 ^ 64 - 1) :
    readNumeral negative (encode (scientific digits exponent)) =
      endDouble negative (number 0 digits) (exponent + 1 - digits.length) [] := by
  obtain ⟨nonempty, all, head⟩ := id leading
  obtain ⟨d, rest, rfl⟩ := List.exists_cons_of_ne_nil nonempty
  have power := readScale_power negative (number 0 (d :: rest))
  have stop (cs : List Char) : startsDigit (encode ('e' :: cs)) = false := rfl
  have first : Leading [d] := by
    refine ⟨List.cons_ne_nil _ _, fun c mem => all c ?_, head⟩
    rw [List.mem_singleton.mp mem]
    exact List.mem_cons_self ..
  cases rest with
  | nil =>
    have read := readNumeral_whole negative (.inl first) fits
      (stop ((if exponent < 0 then '-' else '+') :: Text.Digits.plain exponent.natAbs))
    rw [← Text.Utf8.encode_append] at read
    have place : 0 + exponent = exponent + 1 - [d].length := by
      rw [List.length_singleton]
      omega
    have ended := power 0 exponent small
    rw [place] at ended
    exact read.trans ended
  | cons e rest =>
    have read := readNumeral_point negative (.inl first)
      (fun c mem => all c (List.mem_cons_of_mem _ mem)) (List.cons_ne_nil _ _) fits
      (stop ((if exponent < 0 then '-' else '+') :: Text.Digits.plain exponent.natAbs))
    rw [← Text.Utf8.encode_append] at read
    have place : -((e :: rest).length : ℤ) + exponent = exponent + 1 - (d :: e :: rest).length := by
      simp only [List.length_cons]
      omega
    have ended := power (-(e :: rest).length) exponent small
    rw [place] at ended
    exact read.trans ended

end

/-! ## Reading doubles -/

/-- Whatever notation is chosen for a decimal, its digits are read, and more only where zeros fill
up to the point. -/
theorem readNumeral_decimal (negative : Bool) {d : Decimal} (pos : 0 < d.digits)
    (small : d.digits < 10 ^ 18) (low : -1100 ≤ d.exponent) (high : d.exponent ≤ 1100) :
    let point : ℤ := d.text.length + d.exponent
    readNumeral negative (encode (if -5 < point ∧ point ≤ 16 then positional d.text point
        else scientific d.text (point - 1))) =
      if 0 ≤ d.exponent ∧ point ≤ 16 then
        endDouble negative (d.digits * 10 ^ (d.exponent.toNat + 1)) (-1) []
      else endDouble negative d.digits d.exponent [] := by
  intro point
  have leading := leading_plain pos
  have value := Text.Digits.number_plain d.digits
  have size := Text.Digits.length_plain_pos d.digits
  have short := Text.Digits.length_plain_le pos small
  have below := (Text.Digits.length_plain d.digits).1
  have place : point - d.text.length = d.exponent := by omega
  change Leading d.text at leading
  change number 0 d.text = d.digits at value
  change 0 < d.text.length at size
  change d.text.length ≤ 18 at short
  change d.digits < 10 ^ d.text.length at below
  by_cases near : -5 < point ∧ point ≤ 16
  · have fits : number 0 d.text * 10 ^ (point - d.text.length + 1).toNat ≤ 2 ^ 64 - 1 := by
      rw [place, value]
      by_cases filled : 0 ≤ d.exponent
      · calc d.digits * 10 ^ (d.exponent + 1).toNat
            ≤ 10 ^ d.text.length * 10 ^ (d.exponent + 1).toNat := Nat.mul_le_mul_right _ below.le
          _ = 10 ^ (point + 1).toNat := by
            rw [← Nat.pow_add]
            congr 1
            omega
          _ ≤ 10 ^ 17 := Nat.pow_le_pow_right (by decide) (by omega)
          _ ≤ 2 ^ 64 - 1 := by decide
      · rw [show (d.exponent + 1).toNat = 0 by omega]
        omega
    rw [if_pos near, readNumeral_positional negative leading point fits, place, value]
    by_cases filled : 0 ≤ d.exponent
    · rw [if_pos (by omega), if_pos ⟨filled, near.2⟩,
        show (d.exponent + 1).toNat = d.exponent.toNat + 1 by omega]
    · rw [if_neg (by omega), if_neg (fun both => filled both.1)]
  · rw [if_neg near, readNumeral_scientific negative leading (point - 1) (by omega)
      (by rw [value]; omega), value, show point - 1 + 1 - d.text.length = d.exponent by omega,
      if_neg (by omega)]

section
variable {x : Double} (finite : x.isFinite)
include finite

theorem readNumeral_magnitude (negative : Bool) :
    readNumeral negative (encode (magnitudeText x)) =
      endDouble negative (printedDecimal x).digits (printedDecimal x).exponent [] := by
  cases nonzero : x.isZero with
  | true =>
    have zero : x.shortest = ⟨0, 0⟩ := by rw [Double.shortest, nonzero, if_pos rfl]
    have digit : Decimal.text ⟨0, 0⟩ = ['0'] := by
      rw [Decimal.text, Text.Digits.plain, if_pos (by decide)]
      rfl
    have read := @readNumeral_point negative ['0'] ['0'] (.inr rfl) (isDigit_zeros 1)
      (List.cons_ne_nil _ _) (by decide) [] rfl
    rw [magnitudeText, printedDecimal, zero]
    dsimp only
    rw [digit]
    exact read
  | false =>
    obtain ⟨place, -, onGrid⟩ := Double.shortest_eq nonzero
    obtain ⟨small, low, high⟩ := Double.shortest_bounds nonzero finite
    have read := readNumeral_decimal negative (onGrid?_pos onGrid) small low high
    dsimp only at read
    rw [magnitudeText, printedDecimal, read]
    split <;> rfl

theorem readSigned_finiteText : readSigned (Bytes.ofString (finiteText x)) =
    endDouble x.isNegative (printedDecimal x).digits (printedDecimal x).exponent [] := by
  have read := readNumeral_magnitude finite
  obtain ⟨w, f, e, bytes, whole, -, -⟩ := magnitudeText_unsigned x
  rw [Bytes.ofString, finiteText, String.toList_ofList]
  cases x.isNegative with
  | true => exact read true
  | false =>
    obtain ⟨b, s, rfl, digit⟩ := whole.cons
    rw [if_neg (by decide), List.nil_append, ← read false, bytes, List.cons_append, readSigned,
      if_neg (digit_ne digit).2.2.2.1]

/-- The text of a double is read as the number that its digits form is scaled. -/
theorem whole_numberText {y : Double} :
    whole Scalar.read (Bytes.ofString (numberText x)) = .ok y ↔
      ∃ z, scaled? (printedDecimal x).digits (printedDecimal x).exponent = some z ∧
        y = signed x.isNegative z := by
  have number : readNumber "f64" (Bytes.ofString (finiteText x)) =
      endDouble x.isNegative (printedDecimal x).digits (printedDecimal x).exponent [] := by
    have read := @readNumber_literal _ (finiteText_literal x) "f64" _ [] .none
    rwa [List.append_nil, readSigned_finiteText finite] at read
  have read : Scalar.read (α := Double) (Bytes.ofString (finiteText x)) =
      convert (fun n => .ok n.toDouble) (endDouble x.isNegative (printedDecimal x).digits
        (printedDecimal x).exponent []) := by
    rw [← number]
    rfl
  rw [numberText, if_pos finite, whole, read, endDouble]
  cases scaled? (printedDecimal x).digits (printedDecimal x).exponent with
  | none =>
    constructor
    · intro h
      cases h
    · rintro ⟨z, none, -⟩
      cases none
  | some z =>
    constructor
    · intro h
      cases h
      exact ⟨z, rfl, rfl⟩
    · rintro ⟨_, ⟨⟩, rfl⟩
      rfl

end

/-! ## Reading doubles back -/

/-- Doubles hold both the number that the digits form and the power of ten of their place. -/
def Exact (d : Decimal) : Prop := d.digits ≤ 2 ^ 53 ∧ d.exponent.natAbs ≤ 22

instance (d : Decimal) : Decidable (Exact d) :=
  inferInstanceAs (Decidable (d.digits ≤ 2 ^ 53 ∧ d.exponent.natAbs ≤ 22))

theorem signed_magnitude {x z : Double} (positive : z.isNegative = false)
    (magnitude : z.magnitude = x.magnitude) : signed x.isNegative z = x := by
  unfold signed
  split
  · rename_i negative
    refine Double.ext_magnitude ?_ ?_
    · rw [Double.negate, Double.isNegative_ofMagnitude _ z.magnitude_lt, positive, negative]
      rfl
    · rw [Double.negate, Double.magnitude_ofMagnitude _ z.magnitude_lt, magnitude]
  · rename_i negative
    exact Double.ext_magnitude (by simp [positive, negative]) magnitude

/-- Scaling an exact number by an exact power of ten rounds once. -/
theorem scaled_of_exact {d : Decimal} (exact : Exact d) {m : ℕ}
    (rounds : Double.Rounds d.size m) (finite : m < Double.infinity) :
    ∃ z, scaled? d.digits d.exponent = some z ∧ z.isNegative = false ∧ z.magnitude = m := by
  obtain ⟨short, near⟩ := exact
  have digits := Double.size_ofNat short
  have power := Double.size_ofNat_pow near
  have power_pos : (0 : ℚ) < 10 ^ d.exponent.natAbs := by positivity
  unfold scaled?
  split
  · rename_i below
    have size : d.size = d.digits / 10 ^ d.exponent.natAbs := by
      rw [Decimal.size, div_eq_mul_inv, ← zpow_natCast, ← zpow_neg]
      congr 2
      omega
    have divided := Double.rounds_div (.ofNat d.digits) (power.symm ▸ power_pos)
    rw [digits, power, ← size] at divided
    refine ⟨_, rfl, ?_, ?_⟩
    · rw [shrink, if_pos (by omega), Double.isNegative_div _ (power.symm ▸ power_pos),
        Double.isNegative_ofNat, Double.isNegative_ofNat]
      rfl
    · rw [shrink, if_pos (by omega)]
      exact divided.unique rounds
  · rename_i nonneg
    have size : d.size = d.digits * 10 ^ d.exponent.natAbs := by
      rw [Decimal.size, ← zpow_natCast]
      congr 2
      omega
    split
    · rename_i zero
      have none := Double.rounds_ofNat 0
      rw [size, zero, Nat.cast_zero, zero_mul] at rounds
      rw [Nat.cast_zero] at none
      exact ⟨_, rfl, Double.isNegative_ofNat 0, none.unique rounds⟩
    · have places : d.exponent.toNat = d.exponent.natAbs := by omega
      have multiplied := Double.rounds_mul (.ofNat d.digits) (.ofNat (10 ^ d.exponent.natAbs))
      rw [digits, power, ← size] at multiplied
      have same := multiplied.unique rounds
      have inside : ((Double.ofNat d.digits).mul (.ofNat (10 ^ d.exponent.natAbs))).isFinite := by
        simpa [Double.isFinite, same] using finite
      rw [if_neg (by omega)]
      dsimp only
      rw [places, if_pos inside]
      refine ⟨_, rfl, ?_, same⟩
      rw [Double.isNegative_mul, Double.isNegative_ofNat, Double.isNegative_ofNat]
      rfl

section
variable {x : Double} (finite : x.isFinite)
include finite

theorem rounds_printedDecimal : Double.Rounds (printedDecimal x).size x.magnitude := by
  have same : (printedDecimal x).size = x.shortest.size := by
    unfold printedDecimal
    dsimp only
    split
    · rename_i filled
      obtain ⟨e, exponent⟩ := Int.eq_ofNat_of_zero_le filled.1
      rw [Decimal.size, Decimal.size, exponent, zpow_natCast, zpow_neg_one]
      dsimp only
      push_cast
      rw [Int.toNat_natCast, pow_succ]
      field_simp
    · rfl
  rw [same]
  cases nonzero : x.isZero with
  | true =>
    have own := Double.rounds_size finite
    have none : x.significand = 0 := by
      have magnitude : x.magnitude = 0 := by simpa [Double.isZero] using nonzero
      rw [Double.significand, magnitude, if_pos (by decide)]
    rw [Double.size, none, Nat.cast_zero, zero_mul] at own
    rw [Double.shortest, nonzero, if_pos rfl, Decimal.size, Nat.cast_zero, zero_mul]
    exact own
  | false => exact Double.shortest_rounds nonzero finite

/-- A double whose printed digits and place need no rounding is read back as it was. -/
theorem whole_numberText_of_exact (exact : Exact (printedDecimal x)) :
    whole Scalar.read (Bytes.ofString (numberText x)) = .ok x := by
  obtain ⟨z, scaled, positive, magnitude⟩ := scaled_of_exact exact (rounds_printedDecimal finite)
    (Double.magnitude_lt_infinity finite)
  exact (whole_numberText finite).mpr ⟨z, scaled, (signed_magnitude positive magnitude).symm⟩

end

end MetricLedger.Json
