import MetricLedger.Proofs.Json.Grammar
import MetricLedger.Proofs.Text.Utf8

/-!
# Reading white space and texts

White space is passed over, and a text is read as the characters it spells, whichever of their
spellings are mixed in it.
-/

namespace MetricLedger.Json

/-! ## White space -/

theorem skipSpace_cons_of_space {b : UInt8} (h : isSpace b = true) (s : Bytes) :
    skipSpace (b :: s) = skipSpace s := List.dropWhile_cons_of_pos h

theorem skipSpace_cons {b : UInt8} (h : isSpace b = false) (s : Bytes) :
    skipSpace (b :: s) = b :: s := List.dropWhile_cons_of_neg (by simp [h])

theorem Gap.skipSpace_eq {s t : Bytes} (h : Gap s t) : skipSpace s = skipSpace t := by
  induction h with
  | none => rfl
  | some space _ ih => rw [skipSpace_cons_of_space space, ih]

/-- Behind white space stands what follows it, if that is no white space itself. -/
theorem Gap.skipSpace_cons {s t : Bytes} {b : UInt8} (h : Gap s (b :: t))
    (mark : isSpace b = false) : skipSpace s = b :: t := by
  rw [h.skipSpace_eq, Json.skipSpace_cons mark]

/-! ## Escapes -/

theorem shortEscape?_of_mem {letter c : Char} (h : (letter, c) ∈ shortEscapes) :
    shortEscape? (ascii letter) = some c := by
  have all : ∀ p ∈ shortEscapes, shortEscape? (ascii p.1) = some p.2 := by decide
  exact all _ h

theorem Quad.readQuad_eq {n : Nat} {s t : Bytes} (h : Quad n s t) :
    ∃ r, s = ascii '\\' :: ascii 'u' :: r ∧ readQuad r = .ok (n, t) := by
  obtain ⟨a, b, c, d⟩ := h
  refine ⟨_, rfl, ?_⟩
  simp only [readQuad, a, b, c, d, Except.ok.injEq, Prod.mk.injEq, and_true]
  omega

theorem readEscape_short {letter c : Char} (h : (letter, c) ∈ shortEscapes) (s : Bytes) :
    readEscape (ascii letter :: s) = .ok (c, s) := by
  simp only [readEscape, shortEscape?_of_mem h]

theorem readEscape_numeric (s : Bytes) : readEscape (ascii 'u' :: s) = readCodePoint s := by
  have none : shortEscape? (ascii 'u') = none := by decide
  simp only [readEscape, none, if_true]

theorem readCodePoint_code {c : Char} {s t : Bytes} (h : readQuad s = .ok (c.toNat, t)) :
    readCodePoint s = .ok (c, t) := by
  have valid := Text.Utf8.toNat_valid c
  simp only [readCodePoint, h]
  rw [if_neg (by omega), if_neg (by omega), Char.ofNat_toNat]

theorem readCodePoint_surrogates {c : Char} {high low : Nat} {r s t : Bytes} (hh : high < 0x400)
    (hl : low < 0x400) (whole : c.toNat = 0x10000 + high * 0x400 + low)
    (h : readQuad r = .ok (0xD800 + high, s)) (g : Quad (0xDC00 + low) s t) :
    readCodePoint r = .ok (c, t) := by
  obtain ⟨s, rfl, second⟩ := g.readQuad_eq
  have code : (0xD800 + high - 0xD800) * 0x400 + (0xDC00 + low - 0xDC00) + 0x10000 = c.toNat := by
    omega
  simp only [readCodePoint, h]
  rw [if_neg (by omega), if_pos (by omega)]
  simp only [readTrail, second, ne_eq, not_true, if_false]
  rw [if_neg (by omega), code, Char.ofNat_toNat]

/-! ## Characters -/

/-- The first byte of a character that stands for itself is no quote, backslash or control
character. -/
theorem encodeChar_head {c : Char} {b : UInt8} {s : Bytes} (h : Text.Utf8.encodeChar c = b :: s) :
    (c.toNat < 0x80 → b.toNat = c.toNat) ∧ (0x80 ≤ c.toNat → 0x80 ≤ b.toNat) := by
  have valid := Text.Utf8.toNat_valid c
  dsimp only [Text.Utf8.encodeChar] at h
  split at h
  · obtain ⟨rfl, -⟩ := List.cons.inj h
    rw [Text.Utf8.toNat_toUInt8 (by omega)]; omega
  · split at h
    · obtain ⟨rfl, -⟩ := List.cons.inj h
      rw [Text.Utf8.toNat_toUInt8 (by omega)]; omega
    · split at h
      · obtain ⟨rfl, -⟩ := List.cons.inj h
        rw [Text.Utf8.toNat_toUInt8 (by omega)]; omega
      · obtain ⟨rfl, -⟩ := List.cons.inj h
        rw [Text.Utf8.toNat_toUInt8 (by omega)]; omega

theorem readChars_plain {c : Char} (low : 0x20 ≤ c.toNat) (quote : c ≠ '"') (backslash : c ≠ '\\')
    (done : List Char) (s : Bytes) :
    readChars done none (Text.Utf8.encodeChar c ++ s) = readChars (c :: done) none s := by
  obtain ⟨b, tail, bytes⟩ := List.exists_cons_of_ne_nil (Text.Utf8.encodeChar_ne_nil c)
  obtain ⟨same, large⟩ := encodeChar_head bytes
  have differs {d : Char} (ne : c ≠ d) (hd : d.toNat < 0x80) : b ≠ ascii d := by
    intro eq
    have toNat : b.toNat = d.toNat := by rw [eq, Text.Utf8.toNat_toUInt8 (by omega)]
    have : c.toNat = d.toNat := by omega
    exact ne (Char.toNat_inj.mp this)
  have control : ¬ b < 0x20 := by
    rw [UInt8.lt_iff_toNat_lt]
    have : (0x20 : UInt8).toNat = 0x20 := rfl
    omega
  rw [bytes, List.cons_append, readChars, if_neg (differs quote (by decide)),
    if_neg (differs backslash (by decide)), if_neg control, Text.Utf8.piece_encodeChar bytes]
  simp only [List.drop_left]

theorem readChars_escape {r s : Bytes} {c : Char} (h : readEscape r = .ok (c, s))
    (done : List Char) :
    readChars done none (ascii '\\' :: r) = readChars (c :: done) none s := by
  rw [readChars, if_neg (by decide), if_pos rfl]
  split
  · rename_i failed; rw [h] at failed; cases failed
  · rename_i read; rw [h] at read; cases read; rfl

theorem Spelled.readChars_eq {cs : List Char} {s t : Bytes} (h : Spelled cs s t)
    (done : List Char) : readChars done none s = .ok (done.reverse ++ cs, t) := by
  induction h generalizing done with
  | done => rw [readChars, if_pos rfl]; simp
  | plain low quote backslash _ ih => rw [readChars_plain low quote backslash, ih]; simp
  | short letter _ ih => rw [readChars_escape (readEscape_short letter _), ih]; simp
  | code quad _ ih =>
    obtain ⟨r, rfl, read⟩ := quad.readQuad_eq
    have escape := (readEscape_numeric r).trans (readCodePoint_code read)
    rw [readChars_escape escape, ih]; simp
  | surrogates high low whole first second _ ih =>
    obtain ⟨r, rfl, read⟩ := first.readQuad_eq
    have code := readCodePoint_surrogates high low whole read second
    have escape := (readEscape_numeric r).trans code
    rw [readChars_escape escape, ih]; simp

/-- A text is read as what it spells, and nothing after its closing quote is read. -/
theorem Spelled.readText_eq {cs : List Char} {s t : Bytes} (h : Spelled cs s t) :
    readText s = .ok (String.ofList cs, t) := by
  rw [readText, h.readChars_eq]; rfl

end MetricLedger.Json
