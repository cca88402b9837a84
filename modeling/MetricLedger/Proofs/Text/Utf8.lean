import MetricLedger.Text.Utf8

/-!
# Reading written characters

The bytes of a character are one piece, whatever follows them, so encoding followed by either kind
of decoding gives the characters back. A piece that stands for a character is the bytes of it.
-/

namespace MetricLedger.Text.Utf8

theorem toNat_toUInt8 {n : Nat} (h : n < 256) : n.toUInt8.toNat = n := by
  simp [Nat.toUInt8, Nat.mod_eq_of_lt h]

/-- A code point is no surrogate and within the range of code points. -/
theorem toNat_valid (c : Char) :
    c.toNat < 0xD800 ∨ (0xDFFF < c.toNat ∧ c.toNat < 0x110000) := by
  have := c.valid
  simpa [UInt32.isValidChar, Nat.isValidChar] using this

/-! ## The tests on bytes, on numbers -/

theorem width?_eq (b : UInt8) : width? b =
    if b.toNat < 0x80 then some 1
    else if 0xC2 ≤ b.toNat ∧ b.toNat < 0xE0 then some 2
    else if 0xE0 ≤ b.toNat ∧ b.toNat < 0xF0 then some 3
    else if 0xF0 ≤ b.toNat ∧ b.toNat < 0xF5 then some 4
    else none := by
  simp [width?, UInt8.lt_iff_toNat_lt, UInt8.le_iff_toNat_le]

theorem isTail_iff (b : UInt8) : isTail b = true ↔ 0x80 ≤ b.toNat ∧ b.toNat < 0xC0 := by
  simp [isTail, UInt8.lt_iff_toNat_lt, UInt8.le_iff_toNat_le]

theorem allowsSecond_iff (lead b : UInt8) : allowsSecond lead b = true ↔
    0x80 ≤ b.toNat ∧ b.toNat < 0xC0 ∧ (lead.toNat = 0xE0 → 0xA0 ≤ b.toNat) ∧
      (lead.toNat = 0xED → b.toNat < 0xA0) ∧ (lead.toNat = 0xF0 → 0x90 ≤ b.toNat) ∧
      (lead.toNat = 0xF4 → b.toNat < 0x90) := by
  unfold allowsSecond
  simp only [beq_iff_eq, ← UInt8.toNat_inj]
  split <;> (try split) <;> (try split) <;> (try split) <;>
    simp [UInt8.lt_iff_toNat_lt, UInt8.le_iff_toNat_le] at * <;> omega

/-! ## Characters by their width -/

section
variable (c : Char) (rest : Bytes)

theorem piece_one (h : c.toNat < 0x80) : piece c.toNat.toUInt8 rest = (some c, 0) := by
  have b := toNat_toUInt8 (show c.toNat < 256 by omega)
  have width : width? c.toNat.toUInt8 = some 1 := by rw [width?_eq, b, if_pos h]
  simp [piece, width, b]

theorem piece_two (low : 0x80 ≤ c.toNat) (high : c.toNat < 0x800) :
    piece (0xC0 + c.toNat / 64).toUInt8 ((0x80 + c.toNat % 64).toUInt8 :: rest) =
      (some c, 1) := by
  have b := toNat_toUInt8 (show 0xC0 + c.toNat / 64 < 256 by omega)
  have d := toNat_toUInt8 (show 0x80 + c.toNat % 64 < 256 by omega)
  have width : width? (0xC0 + c.toNat / 64).toUInt8 = some 2 := by
    rw [width?_eq, b, if_neg (by omega), if_pos (by omega)]
  have second : allowsSecond (0xC0 + c.toNat / 64).toUInt8
      (0x80 + c.toNat % 64).toUInt8 = true := by
    rw [allowsSecond_iff, b, d]; omega
  have whole : (0xC0 + c.toNat / 64 - 0xC0) * 64 + (0x80 + c.toNat % 64 - 0x80) = c.toNat := by
    omega
  simp only [piece, width, second, if_true, b, d, whole, Char.ofNat_toNat]

theorem piece_three (low : 0x800 ≤ c.toNat) (high : c.toNat < 0x10000) :
    piece (0xE0 + c.toNat / 4096).toUInt8 ((0x80 + c.toNat / 64 % 64).toUInt8 ::
      (0x80 + c.toNat % 64).toUInt8 :: rest) = (some c, 2) := by
  have valid := toNat_valid c
  have b := toNat_toUInt8 (show 0xE0 + c.toNat / 4096 < 256 by omega)
  have d := toNat_toUInt8 (show 0x80 + c.toNat / 64 % 64 < 256 by omega)
  have e := toNat_toUInt8 (show 0x80 + c.toNat % 64 < 256 by omega)
  have width : width? (0xE0 + c.toNat / 4096).toUInt8 = some 3 := by
    rw [width?_eq, b, if_neg (by omega), if_neg (by omega), if_pos (by omega)]
  have second : allowsSecond (0xE0 + c.toNat / 4096).toUInt8
      (0x80 + c.toNat / 64 % 64).toUInt8 = true := by
    rw [allowsSecond_iff, b, d]; omega
  have tail : isTail (0x80 + c.toNat % 64).toUInt8 = true := by rw [isTail_iff, e]; omega
  have whole : (0xE0 + c.toNat / 4096 - 0xE0) * 4096 + (0x80 + c.toNat / 64 % 64 - 0x80) * 64 +
      (0x80 + c.toNat % 64 - 0x80) = c.toNat := by omega
  simp only [piece, width, second, tail, if_true, b, d, e, whole, Char.ofNat_toNat]

theorem piece_four (low : 0x10000 ≤ c.toNat) :
    piece (0xF0 + c.toNat / 262144).toUInt8 ((0x80 + c.toNat / 4096 % 64).toUInt8 ::
      (0x80 + c.toNat / 64 % 64).toUInt8 :: (0x80 + c.toNat % 64).toUInt8 :: rest) =
      (some c, 3) := by
  have valid := toNat_valid c
  have b := toNat_toUInt8 (show 0xF0 + c.toNat / 262144 < 256 by omega)
  have d := toNat_toUInt8 (show 0x80 + c.toNat / 4096 % 64 < 256 by omega)
  have e := toNat_toUInt8 (show 0x80 + c.toNat / 64 % 64 < 256 by omega)
  have f := toNat_toUInt8 (show 0x80 + c.toNat % 64 < 256 by omega)
  have width : width? (0xF0 + c.toNat / 262144).toUInt8 = some 4 := by
    rw [width?_eq, b, if_neg (by omega), if_neg (by omega), if_neg (by omega), if_pos (by omega)]
  have second : allowsSecond (0xF0 + c.toNat / 262144).toUInt8
      (0x80 + c.toNat / 4096 % 64).toUInt8 = true := by
    rw [allowsSecond_iff, b, d]; omega
  have third : isTail (0x80 + c.toNat / 64 % 64).toUInt8 = true := by rw [isTail_iff, e]; omega
  have fourth : isTail (0x80 + c.toNat % 64).toUInt8 = true := by rw [isTail_iff, f]; omega
  have whole : (0xF0 + c.toNat / 262144 - 0xF0) * 262144 +
      (0x80 + c.toNat / 4096 % 64 - 0x80) * 4096 + (0x80 + c.toNat / 64 % 64 - 0x80) * 64 +
      (0x80 + c.toNat % 64 - 0x80) = c.toNat := by omega
  simp only [piece, width, second, third, fourth, if_true, b, d, e, f, whole, Char.ofNat_toNat]

end

theorem encodeChar_ne_nil (c : Char) : encodeChar c ≠ [] := by
  dsimp only [encodeChar]
  split <;> (try split) <;> (try split) <;> simp

/-- The bytes of a character are read as the character, whatever follows. -/
theorem piece_encodeChar {c : Char} {b : UInt8} {s : Bytes} (h : encodeChar c = b :: s)
    (rest : Bytes) : piece b (s ++ rest) = (some c, s.length) := by
  dsimp only [encodeChar] at h
  split at h
  · obtain ⟨rfl, rfl⟩ := List.cons.inj h
    exact piece_one c rest (by assumption)
  · split at h
    · obtain ⟨rfl, rfl⟩ := List.cons.inj h
      exact piece_two c rest (by omega) (by assumption)
    · split at h
      · obtain ⟨rfl, rfl⟩ := List.cons.inj h
        exact piece_three c rest (by omega) (by assumption)
      · obtain ⟨rfl, rfl⟩ := List.cons.inj h
        exact piece_four c rest (by omega)

/-! ## Pieces that are characters -/

theorem toUInt8_eq {n : Nat} {b : UInt8} (h : n = b.toNat) : n.toUInt8 = b := by
  subst h
  exact UInt8.ofNat_toNat

theorem toNat_ofNat {n : Nat} (h : n < 0xD800 ∨ (0xDFFF < n ∧ n < 0x110000)) :
    (Char.ofNat n).toNat = n := by
  have valid : n.isValidChar := h
  rw [Char.ofNat, dif_pos valid]
  rfl

theorem lead_of_width {b : UInt8} {w : Nat} (h : width? b = some w) :
    (w = 1 ∧ b.toNat < 0x80) ∨ (w = 2 ∧ 0xC2 ≤ b.toNat ∧ b.toNat < 0xE0) ∨
      (w = 3 ∧ 0xE0 ≤ b.toNat ∧ b.toNat < 0xF0) ∨ (w = 4 ∧ 0xF0 ≤ b.toNat ∧ b.toNat < 0xF5) := by
  rw [width?_eq] at h
  split at h
  · cases h; omega
  · split at h
    · cases h; omega
    · split at h
      · cases h; omega
      · split at h
        · cases h; omega
        · cases h

section
variable {b : UInt8} {c : Char} {s : Bytes} {n : Nat} (h : piece b s = (some c, n))
include h

theorem encodeChar_of_one (width : width? b = some 1) : encodeChar c = b :: s.take n := by
  have lead : b.toNat < 0x80 := by have := lead_of_width width; omega
  simp only [piece, width, Prod.mk.injEq, Option.some.injEq] at h
  obtain ⟨rfl, rfl⟩ := h
  rw [encodeChar, toNat_ofNat (.inl (by omega)), if_pos lead, toUInt8_eq rfl, List.take_zero]

theorem encodeChar_of_two (width : width? b = some 2) : encodeChar c = b :: s.take n := by
  have lead : 0xC2 ≤ b.toNat ∧ b.toNat < 0xE0 := by have := lead_of_width width; omega
  simp only [piece, width] at h
  split at h
  · rename_i d r
    split at h
    · rename_i second
      rw [allowsSecond_iff] at second
      simp only [Prod.mk.injEq, Option.some.injEq] at h
      obtain ⟨rfl, rfl⟩ := h
      dsimp only [encodeChar]
      rw [toNat_ofNat (.inl (by omega)), if_neg (by omega), if_pos (by omega),
        toUInt8_eq (b := b) (by omega), toUInt8_eq (b := d) (by omega)]
      rfl
    · cases h
  · cases h

theorem encodeChar_of_three (width : width? b = some 3) : encodeChar c = b :: s.take n := by
  have lead : 0xE0 ≤ b.toNat ∧ b.toNat < 0xF0 := by have := lead_of_width width; omega
  simp only [piece, width] at h
  split at h
  · rename_i d e r
    split at h
    · rename_i second
      split at h
      · rename_i third
        rw [allowsSecond_iff] at second
        rw [isTail_iff] at third
        simp only [Prod.mk.injEq, Option.some.injEq] at h
        obtain ⟨rfl, rfl⟩ := h
        dsimp only [encodeChar]
        rw [toNat_ofNat (by omega), if_neg (by omega), if_neg (by omega), if_pos (by omega),
          toUInt8_eq (b := b) (by omega), toUInt8_eq (b := d) (by omega),
          toUInt8_eq (b := e) (by omega)]
        rfl
      · cases h
    · cases h
  · cases h
  · cases h

theorem encodeChar_of_four (width : width? b = some 4) : encodeChar c = b :: s.take n := by
  have lead : 0xF0 ≤ b.toNat ∧ b.toNat < 0xF5 := by have := lead_of_width width; omega
  simp only [piece, width] at h
  split at h
  · rename_i d e f r
    split at h
    · rename_i second
      split at h
      · rename_i third
        split at h
        · rename_i fourth
          rw [allowsSecond_iff] at second
          rw [isTail_iff] at third fourth
          simp only [Prod.mk.injEq, Option.some.injEq] at h
          obtain ⟨rfl, rfl⟩ := h
          dsimp only [encodeChar]
          rw [toNat_ofNat (by omega), if_neg (by omega), if_neg (by omega), if_neg (by omega),
            toUInt8_eq (b := b) (by omega), toUInt8_eq (b := d) (by omega),
            toUInt8_eq (b := e) (by omega), toUInt8_eq (b := f) (by omega)]
          rfl
        · cases h
      · cases h
    · cases h
  · cases h
  · cases h
  · cases h

/-- A piece that is read as a character is the bytes of this character. -/
theorem encodeChar_of_piece : encodeChar c = b :: s.take n := by
  cases width : width? b with
  | none => simp [piece, width] at h
  | some w =>
    obtain ⟨rfl, -⟩ | ⟨rfl, -⟩ | ⟨rfl, -⟩ | ⟨rfl, -⟩ := lead_of_width width
    · exact encodeChar_of_one h width
    · exact encodeChar_of_two h width
    · exact encodeChar_of_three h width
    · exact encodeChar_of_four h width

end

/-! ## Texts -/

@[simp] theorem encode_nil : encode [] = [] := rfl

@[simp] theorem encode_cons (c : Char) (cs : List Char) :
    encode (c :: cs) = encodeChar c ++ encode cs := rfl

@[simp] theorem encode_append (cs ds : List Char) : encode (cs ++ ds) = encode cs ++ encode ds :=
  List.flatMap_append

theorem encode_ne_nil {cs : List Char} (h : cs ≠ []) : encode cs ≠ [] := by
  obtain ⟨c, cs, rfl⟩ := List.exists_cons_of_ne_nil h
  rw [encode_cons]
  exact List.append_ne_nil_of_left_ne_nil (encodeChar_ne_nil c) _

theorem encodeChar_ascii {c : Char} (h : c.toNat < 0x80) : encodeChar c = [ascii c] := if_pos h

theorem encode_ascii {cs : List Char} (h : ∀ c ∈ cs, c.toNat < 0x80) :
    encode cs = cs.map fun c => ascii c := by
  induction cs with
  | nil => rfl
  | cons c cs ih =>
    rw [encode_cons, encodeChar_ascii (h c (List.mem_cons_self ..)),
      ih fun d mem => h d (List.mem_cons_of_mem _ mem)]
    rfl

theorem pieces_encode (done : List (Option Char)) (cs : List Char) :
    pieces done (encode cs) = done.reverse ++ cs.map some := by
  induction cs generalizing done with
  | nil => simp [pieces]
  | cons c cs ih =>
    obtain ⟨b, s, bytes⟩ := List.exists_cons_of_ne_nil (encodeChar_ne_nil c)
    rw [encode_cons, bytes, List.cons_append, pieces, piece_encodeChar bytes, List.drop_left, ih]
    simp

theorem decode?_encode (cs : List Char) : decode? (encode cs) = some cs := by
  rw [decode?, pieces_encode, List.reverse_nil, List.nil_append]
  induction cs with
  | nil => rfl
  | cons c cs ih => rw [List.map_cons, List.mapM_cons, ih]; rfl

theorem decodeLossy_encode (cs : List Char) : decodeLossy (encode cs) = cs := by
  simp [decodeLossy, pieces_encode, Function.comp_def]

end MetricLedger.Text.Utf8
