import MetricLedger.Proofs.Json.Reread
import MetricLedger.Proofs.Json.Skip

/-!
# Flags, whole numbers and values that may be missing

A whole number is read from its digits exactly, up to the largest one that its type holds, and no
double comes in between. Where a value may be missing, `null` says that there is none.
-/

namespace MetricLedger.Json

open Text.Utf8 (encode)

/-! ## Flags -/

/-- A flag, where one is expected. -/
def Tree.asFlag : Tree → Except Cause Bool
  | .flag b => .ok b
  | v => .error (v.misfit "a boolean")

theorem Tree.asFlag_of_ne {v : Tree} (other : ∀ b, v ≠ .flag b) :
    v.asFlag = .error (v.misfit "a boolean") := by
  cases v with
  | flag b => exact absurd rfl (other b)
  | _ => rfl

theorem Tree.StartsWith.not_flag {v : Tree} {b : UInt8} (h : v.StartsWith b)
    (other : ∀ f, v ≠ .flag f) : b ≠ ascii 't' ∧ b ≠ ascii 'f' := by
  cases v with
  | flag f => exact absurd rfl (other f)
  | number => rcases h with rfl | digit
              · decide
              · exact ⟨(digit_ne digit).2.1, (digit_ne digit).2.2.1⟩
  | _ => cases h; decide

theorem unplaced_readFlag {v : Tree} {r s t : Bytes} (space : Gap r s) (h : Written v s t)
    (ends : Ends t) : unplaced (readFlag r) = v.asFlag.map (·, t) := by
  by_cases flag : ∃ b, v = .flag b
  · obtain ⟨b, rfl⟩ := flag
    cases h
    cases b with
    | true =>
      have word := readWord_append [ascii 'r', ascii 'u', ascii 'e'] t
      have front : skipSpace r = ascii 't' :: ([ascii 'r', ascii 'u', ascii 'e'] ++ t) :=
        space.skipSpace_cons (by decide)
      rw [readFlag, front]
      exact congrArg (fun found => unplaced (found.map (true, ·))) word
    | false =>
      have word := readWord_append [ascii 'a', ascii 'l', ascii 's', ascii 'e'] t
      have front : skipSpace r =
          ascii 'f' :: ([ascii 'a', ascii 'l', ascii 's', ascii 'e'] ++ t) :=
        space.skipSpace_cons (by decide)
      rw [readFlag, front]
      exact congrArg (fun found => unplaced (found.map (false, ·))) word
  · have other : ∀ b, v ≠ .flag b := fun b eq => flag ⟨b, eq⟩
    obtain ⟨b, u, rfl, first⟩ := h.cons
    obtain ⟨yes, no⟩ := first.not_flag other
    rw [readFlag, space.skipSpace_cons first.isSpace, Tree.asFlag_of_ne other,
      ← mismatch_cause h ends "a boolean"]
    simp only [if_neg yes, if_neg no]
    rfl

instance : Meaning Bool where
  of := Tree.asFlag
  read_written := unplaced_readFlag

/-! ## Whole numbers -/

instance : Meaning UInt16 where
  of v := (v.asNumber "u16").bind fun n => (boundedNatural (2 ^ 16) "u16" n).map Nat.toUInt16
  read_written space h ends := unplaced_convert (unplaced_readNumber space h ends _)

instance : Meaning UInt32 where
  of v := (v.asNumber "u32").bind fun n => (boundedNatural (2 ^ 32) "u32" n).map Nat.toUInt32
  read_written space h ends := unplaced_convert (unplaced_readNumber space h ends _)

instance : Meaning UInt64 where
  of v := (v.asNumber "u64").bind fun n => (boundedNatural (2 ^ 64) "u64" n).map Nat.toUInt64
  read_written space h ends := unplaced_convert (unplaced_readNumber space h ends _)

/-- The value that a whole number is written as. -/
def Tree.natural (n : Nat) : Tree := .number (encode (Text.Digits.plain n))

theorem readSigned_digits {s : Bytes} (h : Digits s) : readSigned s = readNumeral false s := by
  obtain ⟨nonempty, digits⟩ := h
  obtain ⟨b, s, rfl⟩ := List.exists_cons_of_ne_nil nonempty
  have minus := (digit_ne (digits b (List.mem_cons_self ..))).2.2.2.1
  rw [readSigned, if_neg minus]

/-- The digits of a number of 64 bits are read as that number. -/
theorem numeralOf_plain {n : Nat} (fits : n < 2 ^ 64) :
    numeralOf (encode (Text.Digits.plain n)) = .ok (.natural n) := by
  have leading : Leading (Text.Digits.plain n) ∨ Text.Digits.plain n = ['0'] := by
    rcases Nat.eq_zero_or_pos n with rfl | pos
    · exact .inr (by rw [Text.Digits.plain]; rfl)
    · exact .inl (leading_plain pos)
  have value := Text.Digits.number_plain n
  have digits := digits_encode (Text.Digits.plain_ne_nil n) (Text.Digits.isDigit_plain n)
  have read := readNumeral_whole false leading (t := []) (by omega) rfl
  have signed := readNumber_literal (literal_plain n) "f64" (t := []) .none
  rw [List.append_nil, value] at read
  rw [List.append_nil, readSigned_digits digits, read] at signed
  exact verdict_of_unplaced (t := []) (congrArg unplaced signed) .none

/-- A whole number below a bound of at most 64 bits is read as itself. -/
theorem Tree.asNumber_natural {bound n : Nat} (small : n < bound) (wide : bound ≤ 2 ^ 64)
    (expected : String) (f : Nat → α) : (((Tree.natural n).asNumber expected).bind fun m =>
      (boundedNatural bound expected m).map f) = .ok (f n) := by
  have read : (Tree.natural n).asNumber expected = .ok (.natural n) :=
    numeralOf_plain (Nat.lt_of_lt_of_le small wide)
  rw [read, Except.bind, boundedNatural, if_pos small]
  rfl

theorem Meaning.natural_uint16 (n : UInt16) : Meaning.of (.natural n.toNat) = .ok n := by
  have read := Tree.asNumber_natural n.toNat_lt (by decide) "u16" Nat.toUInt16
  exact read.trans (congrArg Except.ok UInt16.ofNat_toNat)

theorem Meaning.natural_uint32 (n : UInt32) : Meaning.of (.natural n.toNat) = .ok n := by
  have read := Tree.asNumber_natural n.toNat_lt (by decide) "u32" Nat.toUInt32
  exact read.trans (congrArg Except.ok UInt32.ofNat_toNat)

theorem Meaning.natural_uint64 (n : UInt64) : Meaning.of (.natural n.toNat) = .ok n := by
  have read := Tree.asNumber_natural n.toNat_lt (by decide) "u64" Nat.toUInt64
  exact read.trans (congrArg Except.ok UInt64.ofNat_toNat)

/-! ## Values that may be missing -/

/-- What a value means where `null` means that there is none. -/
def Tree.orNone (of : Tree → Except Cause α) : Tree → Except Cause (Option α)
  | .null => .ok none
  | v => (of v).map some

theorem Tree.StartsWith.ne_null {v : Tree} {b : UInt8} (h : v.StartsWith b) (other : v ≠ .null) :
    b ≠ ascii 'n' := by
  cases v with
  | null => exact absurd rfl other
  | number => rcases h with rfl | digit
              · decide
              · exact (digit_ne digit).1
  | flag f => cases f <;> (cases h; decide)
  | _ => cases h; decide

theorem Tree.orNone_of_ne {of : Tree → Except Cause α} {v : Tree} (other : v ≠ .null) :
    v.orNone of = (of v).map some := by
  cases v with
  | null => exact absurd rfl other
  | _ => rfl

theorem unplaced_readOptional [Scalar α] [Meaning α] {v : Tree} {r s t : Bytes} (space : Gap r s)
    (h : Written v s t) (ends : Ends t) :
    unplaced (readOptional (Scalar.read (α := α)) r) =
      (v.orNone (Meaning.of (α := α))).map (·, t) := by
  by_cases null : v = .null
  · subst null
    cases h
    have word := readWord_append [ascii 'u', ascii 'l', ascii 'l'] t
    have front : skipSpace r = ascii 'n' :: ([ascii 'u', ascii 'l', ascii 'l'] ++ t) :=
      space.skipSpace_cons (by decide)
    rw [readOptional, front]
    exact congrArg (fun found => unplaced (found.map ((none : Option α), ·))) word
  · obtain ⟨b, u, rfl, first⟩ := h.cons
    rw [readOptional, space.skipSpace_cons first.isSpace, Tree.orNone_of_ne null]
    simp only [if_neg (first.ne_null null)]
    exact unplaced_map some (Meaning.read_written .none h ends)

instance [Scalar α] [Meaning α] : Meaning (Option α) where
  of := Tree.orNone Meaning.of
  read_written := unplaced_readOptional

end MetricLedger.Json
