import MetricLedger.Json.Skip
import MetricLedger.Proofs.Json.Extent
import MetricLedger.Proofs.Json.Meaning

/-!
# Passing over values

A value of any kind and any depth is passed over up to its end. Of a number no more is asked than
that it is one, so passing over it stops where reading it does, and reading refuses a number only
for its size.
-/

namespace MetricLedger.Json

/-! ## Texts -/

theorem skipEscape_short {letter c : Char} (h : (letter, c) ∈ shortEscapes) (s : Bytes) :
    skipEscape (ascii letter :: s) = .ok s := by
  simp [skipEscape, shortEscape?_of_mem h]

theorem Quad.skipEscape_eq {n : Nat} {s t : Bytes} (h : Quad n s t) :
    ∃ r, s = ascii '\\' :: r ∧ skipEscape r = .ok t := by
  obtain ⟨r, rfl, read⟩ := h.readQuad_eq
  refine ⟨_, rfl, ?_⟩
  have none : shortEscape? (ascii 'u') = none := by decide
  rw [skipEscape, none, read]
  rfl

theorem skipText_escape {r s : Bytes} (h : skipEscape r = .ok s) :
    skipText (ascii '\\' :: r) = skipText s := by
  rw [skipText, if_neg (by decide), if_pos rfl]
  grind

theorem encodeChar_bytes (c : Char) :
    ∀ b ∈ Text.Utf8.encodeChar c, b.toNat = c.toNat ∨ 0x80 ≤ b.toNat := by
  have valid := Text.Utf8.toNat_valid c
  intro b mem
  simp only [Text.Utf8.encodeChar] at mem
  grind [Text.Utf8.toNat_toUInt8]

/-- A byte is passed over that neither ends a text nor begins an escape. -/
theorem skipText_byte {b : UInt8} (low : 0x20 ≤ b.toNat) (quote : b ≠ ascii '"')
    (backslash : b ≠ ascii '\\') (s : Bytes) : skipText (b :: s) = skipText s := by
  have control : ¬ b < 0x20 := by
    rw [UInt8.lt_iff_toNat_lt]
    exact Nat.not_lt.mpr low
  rw [skipText, if_neg quote, if_neg backslash, if_neg control]

theorem skipText_append {p : Bytes}
    (plain : ∀ b ∈ p, 0x20 ≤ b.toNat ∧ b ≠ ascii '"' ∧ b ≠ ascii '\\') (s : Bytes) :
    skipText (p ++ s) = skipText s := by
  induction p with
  | nil => rfl
  | cons b p ih =>
    obtain ⟨⟨low, quote, backslash⟩, others⟩ := List.forall_mem_cons.mp plain
    rw [List.cons_append, skipText_byte low quote backslash, ih others]

theorem skipText_plain {c : Char} (low : 0x20 ≤ c.toNat) (quote : c ≠ '"') (backslash : c ≠ '\\')
    (s : Bytes) : skipText (Text.Utf8.encodeChar c ++ s) = skipText s := by
  apply skipText_append
  intro b mem
  have bytes := encodeChar_bytes c b mem
  have differs {d : Char} (ne : c ≠ d) (small : d.toNat < 0x80) : b ≠ ascii d := by
    rintro rfl
    rw [Text.Utf8.toNat_toUInt8 (by omega)] at bytes
    exact ne (Char.toNat_inj.mp (by omega))
  exact ⟨by omega, differs quote (by decide), differs backslash (by decide)⟩

theorem Spelled.skipText_eq {cs : List Char} {s t : Bytes} (h : Spelled cs s t) :
    skipText s = .ok t := by
  induction h with
  | done => rw [skipText, if_pos rfl]
  | plain low quote backslash _ ih => rw [skipText_plain low quote backslash, ih]
  | short letter _ ih => rw [skipText_escape (skipEscape_short letter _), ih]
  | code quad _ ih =>
    obtain ⟨r, rfl, escape⟩ := quad.skipEscape_eq
    rw [skipText_escape escape, ih]
  | surrogates _ _ _ first second _ ih =>
    obtain ⟨r, rfl, escape⟩ := first.skipEscape_eq
    obtain ⟨r', rfl, escape'⟩ := second.skipEscape_eq
    rw [skipText_escape escape, skipText_escape escape', ih]

/-! ## Numbers -/

section
variable {t : Bytes} (ends : Ends t)
include ends

theorem skipExponent_digits {sign d : Bytes}
    (h : sign = [] ∨ sign = [ascii '+'] ∨ sign = [ascii '-']) (digits : Digits d) :
    skipExponent (sign ++ (d ++ t)) = .ok t := by
  have unsigned : afterSign (sign ++ (d ++ t)) = d ++ t := by
    rcases h with rfl | rfl | rfl
    · obtain ⟨b, d, rfl⟩ := List.exists_cons_of_ne_nil digits.1
      have digit := digits.2 b (List.mem_cons_self ..)
      have plus : b ≠ ascii '+' := by rintro rfl; revert digit; decide
      have minus : b ≠ ascii '-' := (digit_ne digit).2.2.2.1
      exact if_neg (not_or.mpr ⟨plus, minus⟩)
    · rfl
    · rfl
  rw [skipExponent, unsigned, if_pos (digits.startsDigit_append t),
    dropDigits_append digits.2 (startsDigit_of_ends ends)]

theorem skipScale_exponent {x : Bytes} (h : Exponent x) : skipScale (x ++ t) = .ok t := by
  cases h with
  | none =>
    unfold skipScale
    grind [Ends]
  | some mark sign digits =>
    simp only [List.cons_append, List.append_assoc, skipScale, if_pos mark]
    exact skipExponent_digits ends sign digits

theorem skipAfterWhole_parts {f x : Bytes} (h : Fraction f) (g : Exponent x) :
    skipAfterWhole (f ++ (x ++ t)) = .ok t := by
  have scale := skipScale_exponent ends g
  cases h with
  | none =>
    have point : ∀ r, x ++ t ≠ ascii '.' :: r := by
      intro r starts
      cases g with
      | none => exact (ends _ _ starts).2.1 rfl
      | some mark =>
        obtain rfl := (List.cons.inj starts).1
        revert mark
        decide
    rw [List.nil_append]
    unfold skipAfterWhole
    grind [skipScale]
  | some digits =>
    have rest := dropDigits_append digits.2 (g.startsDigit ends)
    simp only [List.cons_append, skipAfterWhole, if_true, digits.startsDigit_append, rest]
    exact scale

theorem skipNumber_parts {w f x : Bytes} (h : Whole w) (g : Fraction f) (k : Exponent x) :
    skipNumber (w ++ (f ++ (x ++ t))) = .ok t := by
  have after := skipAfterWhole_parts ends g k
  have stop := g.startsDigit k ends
  cases h with
  | zero => simp [skipNumber, stop, after]
  | @digits b s nonzero digits =>
    have first := digits.2 b (List.mem_cons_self ..)
    have rest := dropDigits_append (fun c mem => digits.2 c (List.mem_cons_of_mem _ mem)) stop
    simp only [List.cons_append, skipNumber, if_neg nonzero, first, if_true, rest]
    exact after

end

/-! ## Values that hold no other -/

theorem Tree.StartsWith.not_bracketed {x : Tree} {b : UInt8} (h : x.StartsWith b)
    (other : ¬ x.IsBracketed) : b ≠ ascii '\x7b' ∧ b ≠ ascii '[' := by
  cases x with
  | number =>
    rcases h with rfl | digit
    · decide
    · have := digit_ne digit
      exact ⟨this.2.2.2.2.2.2, this.2.2.2.2.2.1⟩
  | flag f => cases f <;> (cases h; decide)
  | list => exact absurd trivial other
  | object => exact absurd trivial other
  | _ => cases h; decide

theorem readWord_append (word t : Bytes) : readWord word (word ++ t) = .ok t := by
  induction word with
  | nil => rfl
  | cons b word ih => rw [List.cons_append, readWord, if_pos rfl, ih]

theorem skipScalar_literal {b : UInt8} {literal s t : Bytes} (h : Literal literal)
    (front : b :: s = literal ++ t) (ends : Ends t) : skipScalar b s = .ok t := by
  cases h with
  | positive whole f e =>
    have passed := skipNumber_parts ends whole f e
    obtain ⟨c, w, rfl, digit⟩ := whole.cons
    simp only [List.cons_append, List.append_assoc] at front passed
    obtain ⟨rfl, rfl⟩ := List.cons.inj front
    obtain ⟨n, t, f, minus, quote, -⟩ := digit_ne digit
    rw [skipScalar, if_neg n, if_neg t, if_neg f, if_neg quote, if_neg minus, if_pos digit, passed]
  | negative whole f e =>
    have passed := skipNumber_parts ends whole f e
    simp only [List.cons_append, List.append_assoc] at front
    obtain ⟨rfl, rfl⟩ := List.cons.inj front
    exact passed

theorem skipScalar_written {v : Tree} (plain : ¬ v.IsBracketed) {b : UInt8} {s t : Bytes}
    (h : Written v (b :: s) t) (ends : Ends t) : skipScalar b s = .ok t := by
  generalize front : b :: s = r at h
  cases h with
  | null =>
    obtain ⟨rfl, rfl⟩ := List.cons.inj front
    exact readWord_append [ascii 'u', ascii 'l', ascii 'l'] t
  | @flag f =>
    cases f with
    | true =>
      obtain ⟨rfl, rfl⟩ := List.cons.inj front
      exact readWord_append [ascii 'r', ascii 'u', ascii 'e'] t
    | false =>
      obtain ⟨rfl, rfl⟩ := List.cons.inj front
      exact readWord_append [ascii 'a', ascii 'l', ascii 's', ascii 'e'] t
  | number literal => exact skipScalar_literal literal front ends
  | text spelled =>
    obtain ⟨rfl, rfl⟩ := List.cons.inj front
    exact spelled.skipText_eq
  | list => exact absurd trivial plain
  | object => exact absurd trivial plain

/-! ## Brackets -/

def Frame.opening : Frame → Char
  | .list => '['
  | .object => '\x7b'

def Frame.closing : Frame → Char
  | .list => ']'
  | .object => '\x7d'

/-- What an item begins with. -/
def Frame.first : Frame → Expecting
  | .list => .value
  | .object => .key

section
variable (f : Frame) (frames : List Frame) {r s t : Bytes}

theorem Frame.marks : isSpace (ascii f.opening) = false ∧ isSpace (ascii f.closing) = false ∧
    ascii ',' ≠ ascii f.closing ∧ Ends [ascii f.closing] := by
  cases f <;> exact ⟨by decide, by decide, by decide, ends_cons (by decide) []⟩

/-- Behind an opening bracket comes the closing one or the first item. -/
theorem skip_open {b : UInt8} (space : Gap r (ascii f.opening :: s)) (next : skipSpace s = b :: t) :
    skip .value frames r =
      if b = ascii f.closing then skip .afterValue frames t else skip f.first (f :: frames) s := by
  have front := space.skipSpace_cons f.marks.1
  rw [skip]
  split <;> rename_i found <;> rw [front] at found <;> cases found
  cases f with
  | list =>
    rw [if_pos (show ascii Frame.list.opening = ascii '[' from rfl)]
    split <;> rename_i found <;> rw [next] at found <;> cases found
    rfl
  | object =>
    rw [if_neg (by decide), if_pos (show ascii Frame.object.opening = ascii '\x7b' from rfl)]
    split <;> rename_i found <;> rw [next] at found <;> cases found
    rfl

theorem skip_comma (h : Gap s (ascii ',' :: t)) :
    skip .afterValue (f :: frames) s = skip f.first (f :: frames) t := by
  have front := h.skipSpace_cons (show isSpace (ascii ',') = false by decide)
  cases f <;>
    (rw [skip]
     split <;> rename_i found <;> rw [front] at found <;> cases found
     rfl)

theorem skip_close (h : Gap s (ascii f.closing :: t)) :
    skip .afterValue (f :: frames) s = skip .afterValue frames t := by
  have front := h.skipSpace_cons f.marks.2.1
  cases f <;>
    (rw [skip]
     split <;> rename_i found <;> rw [front] at found <;> cases found
     rfl)

end

/-! ## Items -/

section
variable (f : Frame)

/-- Items of a list or an object are passed over, each up to its end. -/
def Frame.Passes (item : α → Bytes → Bytes → Prop) (x : α) : Prop :=
  ∀ ⦃r s t : Bytes⦄ (frames : List Frame), Gap r s → item x s t → Ends t →
    skip f.first (f :: frames) r = skip .afterValue (f :: frames) t

variable {item : α → Bytes → Bytes → Prop} {xs : List α} {r s t : Bytes} (frames : List Frame)

theorem skip_more (h : More item f.closing xs s t) (passed : ∀ x ∈ xs, f.Passes item x) :
    skip .afterValue (f :: frames) s = skip .afterValue frames t := by
  induction h with
  | close space => exact skip_close f frames space
  | next comma space written more ih =>
    obtain ⟨first, others⟩ := List.forall_mem_cons.mp passed
    have ends := more.ends (ends_cons (f.marks.2.2.2 _ _ rfl) _)
    rw [skip_comma f frames comma, first frames space written ends, ih others]

theorem skip_separated (space : Gap r (ascii f.opening :: s))
    (h : Separated item f.closing xs s t) (passed : ∀ x ∈ xs, f.Passes item x)
    (begins : ∀ x ∈ xs, ∀ u v, item x u v →
      ∃ b w, u = b :: w ∧ isSpace b = false ∧ b ≠ ascii f.closing) :
    skip .value frames r = skip .afterValue frames t := by
  cases h with
  | none close => rw [skip_open f frames space (close.skipSpace_cons f.marks.2.1), if_pos rfl]
  | some before written more =>
    obtain ⟨first, others⟩ := List.forall_mem_cons.mp passed
    obtain ⟨b, w, rfl, solid, other⟩ := begins _ (List.mem_cons_self ..) _ _ written
    have ends := more.ends (ends_cons (f.marks.2.2.2 _ _ rfl) _)
    rw [skip_open f frames space (before.skipSpace_cons solid), if_neg other,
      first frames before written ends, skip_more f frames more others]

end

/-! ## Values of any depth -/

theorem skip_key {frames : List Frame} {s t : Bytes} (h : skipKey s = .ok t) :
    skip .key frames s = skip .value frames t := by
  rw [skip]
  split <;> rename_i found <;> rw [h] at found <;> cases found
  rfl

theorem skipKey_gap {cs : List Char} {r s t u : Bytes} (space : Gap r (ascii '"' :: s))
    (h : Spelled cs s t) (colon : Gap t (ascii ':' :: u)) : skipKey r = .ok u := by
  simp only [skipKey, space.skipSpace_cons (show isSpace (ascii '"') = false by decide),
    h.skipText_eq, colon.skipSpace_cons (show isSpace (ascii ':') = false by decide)]
  rfl

theorem skip_plain {v : Tree} (plain : ¬ v.IsBracketed) {r s t : Bytes} (frames : List Frame)
    (space : Gap r s) (h : Written v s t) (ends : Ends t) :
    skip .value frames r = skip .afterValue frames t := by
  obtain ⟨b, s, rfl, first⟩ := h.cons
  have front := space.skipSpace_cons first.isSpace
  have passed := skipScalar_written plain h ends
  obtain ⟨brace, bracket⟩ := first.not_bracketed plain
  rw [skip]
  split <;> rename_i found <;> rw [front] at found <;> cases found
  rw [if_neg bracket, if_neg brace]
  split <;> rename_i found <;> rw [passed] at found <;> cases found
  rfl

/-- A value is passed over up to its end, however deep it is. -/
theorem skip_written (v : Tree) : ∀ {r s t : Bytes} (frames : List Frame), Gap r s →
    Written v s t → Ends t → skip .value frames r = skip .afterValue frames t := by
  induction v using Tree.induct with
  | list items ih =>
    rintro r _ t frames space ⟨⟩ -
    rename_i s separated
    refine skip_separated .list frames space separated ?_ ?_
    · intro x mem r s t frames
      exact ih x mem (.list :: frames)
    · intro x _ u v written
      obtain ⟨b, w, rfl, first⟩ := written.cons
      exact ⟨b, w, rfl, first.isSpace, first.ne_mark.1⟩
  | object members ih =>
    rintro r _ t frames space ⟨⟩ -
    rename_i s separated
    refine skip_separated .object frames space separated ?_ ?_
    · rintro m mem r _ t frames space ⟨spelled, colon, behind, value⟩ ends
      change skip .key _ _ = _
      rw [skip_key (skipKey_gap space spelled colon)]
      exact ih _ mem _ behind value ends
    · rintro m - _ v ⟨⟩
      exact ⟨_, _, rfl, by decide, by decide⟩
  | _ => exact skip_plain id

theorem skipValue_written {v : Tree} {r s t : Bytes} (space : Gap r s) (h : Written v s t)
    (ends : Ends t) : skipValue r = .ok t := by
  rw [skipValue, skip_written v [] space h ends, skip]

end MetricLedger.Json
