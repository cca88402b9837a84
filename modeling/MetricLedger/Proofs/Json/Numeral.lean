import MetricLedger.Json.Scalar
import MetricLedger.Proofs.Json.Spelling

/-!
# Reading numbers

What a reader makes of a number literal is settled by the literal: it takes all of it and nothing of
what follows, as long as that could not go on with the number.
-/

namespace MetricLedger.Json

/-- What reading gives, the place of a fault left aside. -/
def unplaced (found : Outcome α) : Except Cause (α × Bytes) := found.mapError Fault.cause

theorem unplaced_cases {found : Outcome α} {result : Except Cause α} {t : Bytes}
    (h : unplaced found = result.map (·, t)) :
    (∃ fault, found = .error fault ∧ result = .error fault.cause) ∨
      ∃ a, found = .ok (a, t) ∧ result = .ok a := by
  cases found with
  | error fault =>
    cases result with
    | error cause => exact .inl ⟨fault, rfl, congrArg Except.error (Except.error.inj h).symm⟩
    | ok a => cases h
  | ok pair =>
    cases result with
    | error cause => cases h
    | ok a => exact .inr ⟨a, congrArg Except.ok (Except.ok.inj h), rfl⟩

/-- What follows a number does not begin like a further part of it. -/
def Ends (t : Bytes) : Prop :=
  ∀ b s, t = b :: s → isDigit b = false ∧ b ≠ ascii '.' ∧ b ≠ ascii 'e' ∧ b ≠ ascii 'E'

/-- A reader takes the text `s` as a whole, with the same result whatever follows it. -/
def Takes (read : Bytes → Outcome α) (s : Bytes) : Prop :=
  ∃ result : Except Cause α, ∀ t, Ends t → unplaced (read (s ++ t)) = result.map (·, t)

theorem Takes.congr {read other : Bytes → Outcome α} {s r : Bytes} (h : Takes other r)
    (same : ∀ t, Ends t → read (s ++ t) = other (r ++ t)) : Takes read s := by
  obtain ⟨result, taken⟩ := h
  exact ⟨result, fun t ends => by rw [same t ends, taken t ends]⟩

theorem ends_nil : Ends [] := by intro b s h; cases h

theorem ends_cons {b : UInt8}
    (h : isDigit b = false ∧ b ≠ ascii '.' ∧ b ≠ ascii 'e' ∧ b ≠ ascii 'E') (s : Bytes) :
    Ends (b :: s) := by
  rintro c t ⟨⟩
  exact h

theorem ends_of_isSpace {b : UInt8} (h : isSpace b = true) (s : Bytes) : Ends (b :: s) := by
  refine ends_cons ?_ s
  simp only [isSpace, Bool.or_eq_true, beq_iff_eq] at h
  rcases h with ((rfl | rfl) | rfl) | rfl <;> decide

theorem Gap.ends {s t : Bytes} (h : Gap s t) (ends : Ends t) : Ends s := by
  cases h with
  | none => exact ends
  | some space => exact ends_of_isSpace space _

theorem More.ends {item : α → Bytes → Bytes → Prop} {close : Char} {xs : List α} {s t : Bytes}
    (h : More item close xs s t) (bracket : Ends (ascii close :: t)) : Ends s := by
  cases h with
  | close space => exact space.ends bracket
  | next space => exact space.ends (ends_cons (by decide) _)

/-! ## Runs of digits -/

theorem startsDigit_cons (b : UInt8) (s : Bytes) : startsDigit (b :: s) = isDigit b := rfl

theorem startsDigit_of_ends {t : Bytes} (h : Ends t) : startsDigit t = false := by
  cases t with
  | nil => rfl
  | cons b s => exact (h b s rfl).1

theorem Digits.startsDigit_append {s : Bytes} (h : Digits s) (t : Bytes) :
    startsDigit (s ++ t) = true := by
  obtain ⟨nonempty, digits⟩ := h
  cases s with
  | nil => exact absurd rfl nonempty
  | cons b s => exact digits b (List.mem_cons_self ..)

theorem Digits.of_all {s : Bytes} (nonempty : s ≠ []) (all : s.all isDigit = true) : Digits s :=
  ⟨nonempty, List.all_eq_true.mp all⟩

theorem dropDigits_append {s t : Bytes} (digits : ∀ b ∈ s, isDigit b = true)
    (stop : startsDigit t = false) : (s ++ t).dropWhile isDigit = t := by
  rw [List.dropWhile_append_of_pos digits]
  cases t with
  | nil => rfl
  | cons b t => exact List.dropWhile_cons_of_neg (by simpa [startsDigit_cons] using stop)

/-- Digits are absorbed from a run of them without a look at what follows the run. -/
theorem absorb_append (limit n : Nat) (s : Bytes) {t : Bytes} (stop : startsDigit t = false) :
    absorb limit n (s ++ t) = ((absorb limit n s).1, (absorb limit n s).2 ++ t) := by
  induction s generalizing n with
  | nil =>
    cases t with
    | nil => rfl
    | cons b t =>
      rw [startsDigit_cons] at stop
      simp [absorb, stop]
  | cons b s ih =>
    rw [List.cons_append, absorb, absorb]
    split
    · exact ih _
    · rfl

theorem absorb_suffix (limit n : Nat) (s : Bytes) : (absorb limit n s).2 <:+ s := by
  fun_induction absorb limit n s with
  | case1 => exact List.suffix_refl _
  | case2 _ b s _ ih => exact ih.trans (List.suffix_cons b s)
  | case3 => exact List.suffix_refl _

theorem absorb_digits {s : Bytes} (digits : ∀ b ∈ s, isDigit b = true) (limit n : Nat) :
    ∀ b ∈ (absorb limit n s).2, isDigit b = true :=
  fun b h => digits b ((absorb_suffix limit n s).mem h)

/-! ## From the end of a number to its front -/

section
variable (negative : Bool) (n : Nat) (exponent : Int)

theorem endDouble_takes : Takes (endDouble negative n exponent) [] := by
  cases scaled : scaled? n exponent with
  | none =>
    exact ⟨.error .numberTooLarge,
      fun t _ => by simp only [endDouble, List.nil_append, scaled]; rfl⟩
  | some x =>
    exact ⟨.ok (.double (signed negative x)),
      fun t _ => by simp only [endDouble, List.nil_append, scaled]; rfl⟩

theorem readExponentDigits_takes (up : Bool) {s : Bytes} (h : Digits s) :
    Takes (readExponentDigits negative n exponent up) s := by
  obtain ⟨nonempty, digits⟩ := h
  obtain ⟨b, s, rfl⟩ := List.exists_cons_of_ne_nil nonempty
  have first : isDigit b = true := digits b (List.mem_cons_self ..)
  have others : ∀ c ∈ s, isDigit c = true := fun c h => digits c (List.mem_cons_of_mem _ h)
  have left := absorb_digits others 2147483647 (digitValue b)
  have unfolded (t : Bytes) (ends : Ends t) :
      readExponentDigits negative n exponent up (b :: s ++ t) =
        if startsDigit ((absorb 2147483647 (digitValue b) s).2 ++ t) then
          if n ≠ 0 ∧ up then
            .error ⟨.numberTooLarge, ((absorb 2147483647 (digitValue b) s).2 ++ t).tail⟩
          else .ok (.double (signed negative (.ofNat 0)), t)
        else endDouble negative n
          (if up then exponent + (absorb 2147483647 (digitValue b) s).1
            else exponent - (absorb 2147483647 (digitValue b) s).1)
          ((absorb 2147483647 (digitValue b) s).2 ++ t) := by
    have stop := startsDigit_of_ends ends
    rw [List.cons_append, readExponentDigits, if_pos first, absorb_append _ _ _ stop]
    simp only [dropDigits_append left stop]
  -- Digits are left over only when the exponent is too large to be told apart from any other.
  by_cases fits : (absorb 2147483647 (digitValue b) s).2 = []
  · refine (endDouble_takes negative n (if up then exponent + (absorb 2147483647 (digitValue b) s).1
      else exponent - (absorb 2147483647 (digitValue b) s).1)).congr fun t ends => ?_
    rw [unfolded t ends, fits, List.nil_append, startsDigit_of_ends ends]
    rfl
  · have more (t : Bytes) := Digits.startsDigit_append ⟨fits, left⟩ t
    by_cases large : n ≠ 0 ∧ up
    · refine ⟨.error .numberTooLarge, fun t ends => ?_⟩
      rw [unfolded t ends, if_pos (more t), if_pos large]; rfl
    · refine ⟨.ok (.double (signed negative (.ofNat 0))), fun t ends => ?_⟩
      rw [unfolded t ends, if_pos (more t), if_neg large]; rfl

theorem readExponent_takes {sign s : Bytes}
    (h : sign = [] ∨ sign = [ascii '+'] ∨ sign = [ascii '-']) (digits : Digits s) :
    Takes (readExponent negative n exponent) (sign ++ s) := by
  rcases h with rfl | rfl | rfl
  · obtain ⟨b, s, rfl⟩ := List.exists_cons_of_ne_nil digits.1
    have digit := digits.2 b (List.mem_cons_self ..)
    have plus : b ≠ ascii '+' := by rintro rfl; revert digit; decide
    have minus : b ≠ ascii '-' := by rintro rfl; revert digit; decide
    refine (readExponentDigits_takes negative n exponent true digits).congr fun t _ => ?_
    rw [List.nil_append, List.cons_append, readExponent]
    simp only [if_neg plus, if_neg minus]
  · exact (readExponentDigits_takes negative n exponent true digits).congr fun t _ => rfl
  · exact (readExponentDigits_takes negative n exponent false digits).congr fun t _ => rfl

theorem readScale_takes {x : Bytes} (h : Exponent x) :
    Takes (readScale negative n exponent) x := by
  cases h with
  | none =>
    refine (endDouble_takes negative n exponent).congr fun t ends => ?_
    cases t with
    | nil => rfl
    | cons b t =>
      obtain ⟨-, -, e, E⟩ := ends b t rfl
      rw [List.nil_append, readScale, if_neg (not_or.mpr ⟨e, E⟩)]
  | some mark sign digits =>
    refine (readExponent_takes negative n exponent sign digits).congr fun t _ => ?_
    rw [List.cons_append, readScale, if_pos mark]

theorem Exponent.startsDigit {x t : Bytes} (h : Exponent x) (ends : Ends t) :
    startsDigit (x ++ t) = false := by
  cases h with
  | none => exact startsDigit_of_ends ends
  | some mark => rcases mark with rfl | rfl <;> rfl

theorem readFraction_takes {d x : Bytes} (digits : Digits d) (h : Exponent x) :
    Takes (readFraction negative n exponent) (d ++ x) := by
  refine (readScale_takes negative (absorb (2 ^ 64 - 1) n d).1
    (exponent - (d.length - (absorb (2 ^ 64 - 1) n d).2.length : Nat)) h).congr fun t ends => ?_
  have stop := h.startsDigit ends
  have left := absorb_digits digits.2 (2 ^ 64 - 1) n
  have count : (d ++ (x ++ t)).length - ((absorb (2 ^ 64 - 1) n d).2 ++ (x ++ t)).length =
      d.length - (absorb (2 ^ 64 - 1) n d).2.length := by
    simp only [List.length_append]; omega
  rw [List.append_assoc, readFraction, if_pos (digits.startsDigit_append _),
    absorb_append _ _ _ stop]
  simp only [dropDigits_append left stop, count]

theorem readAfterWhole_takes (extra : Nat) {f x : Bytes} (h : Fraction f) (g : Exponent x) :
    Takes (readAfterWhole negative n extra) (f ++ x) := by
  cases h with
  | some digits => exact (readFraction_takes negative n extra digits g).congr fun t _ => rfl
  | none =>
    cases g with
    | some mark sign digits =>
      refine (readScale_takes negative n extra (.some mark sign digits)).congr fun t _ => ?_
      rcases mark with rfl | rfl <;> simp [readAfterWhole]
    | none =>
      by_cases fits : extra = 0
      · refine ⟨.ok (wholeNumeral negative n), fun t ends => ?_⟩
        cases t with
        | nil => simp only [List.nil_append, readAfterWhole, if_pos fits]; rfl
        | cons b t =>
          obtain ⟨-, point, e, E⟩ := ends b t rfl
          simp only [List.nil_append, readAfterWhole]
          rw [if_neg point, if_pos ⟨fits, e, E⟩]; rfl
      · refine (readScale_takes negative n extra .none).congr fun t ends => ?_
        cases t with
        | nil => simp only [List.nil_append, readAfterWhole, if_neg fits]
        | cons b t =>
          obtain ⟨-, point, -, -⟩ := ends b t rfl
          simp only [List.nil_append, readAfterWhole]
          rw [if_neg point, if_neg (fun all => fits all.1)]

end

theorem Fraction.startsDigit {f x t : Bytes} (h : Fraction f) (g : Exponent x) (ends : Ends t) :
    startsDigit (f ++ (x ++ t)) = false := by
  cases h with
  | none => exact g.startsDigit ends
  | some => rw [List.cons_append, startsDigit_cons]; decide

theorem readNumeral_takes (negative : Bool) {w f x : Bytes} (whole : Whole w) (h : Fraction f)
    (g : Exponent x) : Takes (readNumeral negative) (w ++ (f ++ x)) := by
  cases whole with
  | zero =>
    refine (readAfterWhole_takes negative 0 0 h g).congr fun t ends => ?_
    have stop := h.startsDigit g ends
    simp only [List.cons_append, List.nil_append, List.append_assoc, readNumeral, if_true]
    rw [stop]; rfl
  | @digits b s nonzero digits =>
    have first := digits.2 b (List.mem_cons_self ..)
    have others : ∀ c ∈ s, isDigit c = true := fun c h => digits.2 c (List.mem_cons_of_mem _ h)
    have left := absorb_digits others (2 ^ 64 - 1) (digitValue b)
    refine (readAfterWhole_takes negative (absorb (2 ^ 64 - 1) (digitValue b) s).1
      (absorb (2 ^ 64 - 1) (digitValue b) s).2.length h g).congr fun t ends => ?_
    have stop := h.startsDigit g ends
    simp only [List.cons_append, List.append_assoc, readNumeral]
    rw [if_neg nonzero, if_pos first, absorb_append _ _ _ stop]
    simp only [dropDigits_append left stop, List.length_append, Nat.add_sub_cancel]

end MetricLedger.Json
