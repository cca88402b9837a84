import MetricLedger.Proofs.Json.Meaning

/-!
# What the readers accept

The converse of what is known of the readers on texts of the grammar: where one of them succeeds,
the text it has read is of the grammar. For numbers and texts, a lemma for each scanner, from the
innermost one outwards.
-/

namespace MetricLedger.Json

/-! ## White space -/

theorem gap_skipSpace (s : Bytes) : Gap s (skipSpace s) := by
  induction s with
  | nil => exact .none
  | cons b s ih =>
    cases space : isSpace b with
    | true => rw [skipSpace_cons_of_space space]; exact .some space ih
    | false => rw [skipSpace_cons space]; exact .none

theorem gap_of_skipSpace {s t : Bytes} (h : skipSpace s = t) : Gap s t := h ▸ gap_skipSpace s

theorem Gap.trans {s t u : Bytes} (h : Gap s t) (g : Gap t u) : Gap s u := by
  induction h with
  | none => exact g
  | some space _ ih => exact .some space (ih g)

/-! ## Texts -/

theorem byteValue?_lt {b : UInt8} {n : Nat} (h : Text.Hex.byteValue? b = some n) : n < 16 := by
  unfold Text.Hex.byteValue? Text.Hex.value? at h
  dsimp only at h
  split at h
  · cases h; omega
  · split at h
    · cases h; omega
    · split at h
      · cases h; omega
      · cases h

theorem quad_of_readQuad {s t : Bytes} {n : Nat} (h : readQuad s = .ok (n, t)) :
    n < 0x10000 ∧ Quad n (ascii '\\' :: ascii 'u' :: s) t := by
  unfold readQuad at h
  split at h
  · rename_i a b c d s
    split at h
    · rename_i i j k l first second third fourth
      have := byteValue?_lt first
      have := byteValue?_lt second
      have := byteValue?_lt third
      have := byteValue?_lt fourth
      simp only [Except.ok.injEq, Prod.mk.injEq] at h
      obtain ⟨rfl, rfl⟩ := h
      refine ⟨by omega, ?_⟩
      have quad := Quad.mk (t := s) first second third fourth
      have same : i * 16 ^ 3 + j * 16 ^ 2 + k * 16 + l = ((i * 16 + j) * 16 + k) * 16 + l := by
        omega
      rwa [same] at quad
    · cases h
  · cases h

theorem mem_shortEscapes {b : UInt8} {c : Char} (h : shortEscape? b = some c) :
    ∃ letter, b = ascii letter ∧ (letter, c) ∈ shortEscapes := by
  unfold shortEscape? at h
  split_ifs at h with quote backslash slash backspace feed newline carriage tab
  all_goals
    cases h
    exact ⟨_, ‹_›, by decide⟩

theorem readTrail_eq_ok {lead : Nat} {s t : Bytes} {c : Char} (h : readTrail lead s = .ok (c, t)) :
    ∃ r trail, s = ascii '\\' :: ascii 'u' :: r ∧ readQuad r = .ok (trail, t) ∧ 0xDC00 ≤ trail ∧
      trail ≤ 0xDFFF ∧ c = Char.ofNat ((lead - 0xD800) * 0x400 + (trail - 0xDC00) + 0x10000) := by
  unfold readTrail at h
  grind

theorem readCodePoint_eq_ok {s t : Bytes} {c : Char} (h : readCodePoint s = .ok (c, t)) :
    ∃ n r, readQuad s = .ok (n, r) ∧ ((0xD800 ≤ n ∧ n ≤ 0xDBFF ∧ readTrail n r = .ok (c, t)) ∨
      ((n < 0xD800 ∨ 0xDFFF < n) ∧ c = Char.ofNat n ∧ r = t)) := by
  unfold readCodePoint at h
  grind

theorem readEscape_eq_ok {s t : Bytes} {c : Char} (h : readEscape s = .ok (c, t)) :
    ∃ b r, s = b :: r ∧ ((shortEscape? b = some c ∧ r = t) ∨
      (b = ascii 'u' ∧ readCodePoint r = .ok (c, t))) := by
  unfold readEscape at h
  grind

theorem quad_of_readTrail {high : Nat} {s t : Bytes} {c : Char} (range : high < 0x400)
    (h : readTrail (0xD800 + high) s = .ok (c, t)) :
    ∃ low < 0x400, c.toNat = 0x10000 + high * 0x400 + low ∧ Quad (0xDC00 + low) s t := by
  obtain ⟨r, trail, rfl, read, lower, upper, char⟩ := readTrail_eq_ok h
  obtain ⟨low, rfl⟩ := Nat.exists_eq_add_of_le lower
  obtain ⟨-, quad⟩ := quad_of_readQuad read
  refine ⟨low, by omega, ?_, quad⟩
  rw [char, Text.Utf8.toNat_ofNat (by omega)]
  omega

theorem spelled_of_readCodePoint {s r t : Bytes} {c : Char} {cs : List Char}
    (h : readCodePoint s = .ok (c, r)) (rest : Spelled cs r t) :
    Spelled (c :: cs) (ascii '\\' :: ascii 'u' :: s) t := by
  obtain ⟨n, q, read, ⟨lower, upper, trail⟩ | ⟨plain, rfl, rfl⟩⟩ := readCodePoint_eq_ok h
  · obtain ⟨high, rfl⟩ := Nat.exists_eq_add_of_le lower
    obtain ⟨-, first⟩ := quad_of_readQuad read
    obtain ⟨low, small, code, second⟩ := quad_of_readTrail (by omega) trail
    exact .surrogates (by omega) small code first second rest
  · obtain ⟨bound, quad⟩ := quad_of_readQuad read
    refine .code ?_ rest
    rwa [Text.Utf8.toNat_ofNat (by omega)]

/-- What is read behind a backslash is an escape of the character. -/
theorem spelled_of_readEscape {s r t : Bytes} {c : Char} {cs : List Char}
    (h : readEscape s = .ok (c, r)) (rest : Spelled cs r t) :
    Spelled (c :: cs) (ascii '\\' :: s) t := by
  obtain ⟨b, q, rfl, ⟨short, rfl⟩ | ⟨rfl, code⟩⟩ := readEscape_eq_ok h
  · obtain ⟨letter, rfl, mem⟩ := mem_shortEscapes short
    exact .short mem rest
  · exact spelled_of_readCodePoint code rest

theorem spelled_of_piece {b : UInt8} {s t : Bytes} {c : Char} {n : Nat} {cs : List Char}
    (h : Text.Utf8.piece b s = (some c, n)) (quote : b ≠ ascii '"') (backslash : b ≠ ascii '\\')
    (control : ¬ b < 0x20) (rest : Spelled cs (s.drop n) t) : Spelled (c :: cs) (b :: s) t := by
  have bytes := Text.Utf8.encodeChar_of_piece h
  obtain ⟨same, -⟩ := encodeChar_head bytes
  have differs {d : Char} (ne : b ≠ ascii d) (small : d.toNat < 0x80) : c ≠ d := by
    rintro rfl
    exact ne (Text.Utf8.toUInt8_eq (same small).symm).symm
  have low : 0x20 ≤ c.toNat := by
    rw [UInt8.lt_iff_toNat_lt] at control
    have : (0x20 : UInt8).toNat = 0x20 := rfl
    by_cases small : c.toNat < 0x80
    · have := same small
      omega
    · omega
  have plain := Spelled.plain low (differs quote (by decide)) (differs backslash (by decide)) rest
  rwa [bytes, List.cons_append, List.take_append_drop] at plain

theorem spelled_of_readChars {done cs : List Char} {broken : Option Bytes} {s t : Bytes}
    (h : readChars done broken s = .ok (cs, t)) :
    broken = none ∧ ∃ ds, cs = done.reverse ++ ds ∧ Spelled ds s t := by
  fun_induction readChars done broken s with
  | case3 done s =>
    simp only [Except.ok.injEq, Prod.mk.injEq] at h
    obtain ⟨rfl, rfl⟩ := h
    exact ⟨rfl, [], (List.append_nil _).symm, .done⟩
  | case6 done s c r escape _ ih =>
    obtain ⟨-, ds, rfl, spelled⟩ := ih h
    exact ⟨rfl, c :: ds, by simp, spelled_of_readEscape escape spelled⟩
  | case8 done broken b s quote backslash control c n piece ih =>
    obtain ⟨unbroken, ds, rfl, spelled⟩ := ih h
    exact ⟨unbroken, c :: ds, by simp, spelled_of_piece piece quote backslash control spelled⟩
  | case9 done broken b s _ _ _ n _ ih =>
    -- Bytes that are no character are told of at the latest where the text ends.
    obtain ⟨unbroken, -⟩ := ih h
    cases broken <;> cases unbroken
  | _ => cases h

/-- What is read as a text is a form of it. -/
theorem spelled_of_readText {s t : Bytes} {text : String} (h : readText s = .ok (text, t)) :
    ∃ cs, text = String.ofList cs ∧ Spelled cs s t := by
  obtain ⟨⟨cs, r⟩, read, pair⟩ := ok_of_map h
  obtain ⟨-, ds, same, spelled⟩ := spelled_of_readChars read
  cases pair
  exact ⟨ds, congrArg String.ofList same, spelled⟩

/-! ## Numbers -/

theorem Digits.cons {b : UInt8} {d : Bytes} (first : isDigit b = true)
    (others : ∀ c ∈ d, isDigit c = true) : Digits (b :: d) :=
  ⟨List.cons_ne_nil _ _, List.forall_mem_cons.mpr ⟨first, others⟩⟩

theorem startsDigit_dropDigits (s : Bytes) : startsDigit (s.dropWhile isDigit) = false := by
  induction s with
  | nil => rfl
  | cons b s ih =>
    cases digit : isDigit b with
    | true => rwa [List.dropWhile_cons_of_pos digit]
    | false => rwa [List.dropWhile_cons_of_neg (by simp [digit])]

theorem dropDigits_spec (s : Bytes) :
    ∃ d, s = d ++ s.dropWhile isDigit ∧ ∀ b ∈ d, isDigit b = true :=
  ⟨s.takeWhile isDigit, List.takeWhile_append_dropWhile.symm,
    fun _ mem => List.all_eq_true.mp List.all_takeWhile _ mem⟩

/-- What is absorbed and what is passed over behind it are the digits at the front of a text. -/
theorem absorb_spec (limit n : Nat) (s : Bytes) :
    ∃ d, s = d ++ (absorb limit n s).2 ∧ ∀ b ∈ d, isDigit b = true := by
  fun_induction absorb limit n s with
  | case1 => exact ⟨[], rfl, by simp⟩
  | case2 n b s more ih =>
    obtain ⟨d, split, digits⟩ := ih
    rw [Bool.and_eq_true] at more
    refine ⟨b :: d, by rw [List.cons_append, ← split], ?_⟩
    simpa using ⟨more.1, digits⟩
  | case3 => exact ⟨[], rfl, by simp⟩

theorem digits_absorb (limit n : Nat) (s : Bytes) :
    ∃ d, s = d ++ (absorb limit n s).2.dropWhile isDigit ∧ ∀ b ∈ d, isDigit b = true := by
  obtain ⟨d, front, digits⟩ := absorb_spec limit n s
  obtain ⟨e, back, digits'⟩ := dropDigits_spec (absorb limit n s).2
  refine ⟨d ++ e, by rw [List.append_assoc, ← back, ← front], ?_⟩
  intro b mem
  exact (List.mem_append.mp mem).elim (digits b) (digits' b)

section
variable {negative : Bool} {n : Nat} {exponent : Int} {s t : Bytes} {v : Numeral}

theorem rest_of_endDouble (h : endDouble negative n exponent s = .ok (v, t)) : t = s := by
  unfold endDouble at h
  split at h
  · cases h; rfl
  · cases h

theorem readExponentDigits_eq_ok {up : Bool}
    (h : readExponentDigits negative n exponent up s = .ok (v, t)) :
    ∃ b r, s = b :: r ∧ isDigit b = true ∧ (t = (absorb 2147483647 (digitValue b) r).2 ∨
      t = (absorb 2147483647 (digitValue b) r).2.dropWhile isDigit) := by
  unfold readExponentDigits at h
  grind [rest_of_endDouble]

theorem digits_of_readExponentDigits {up : Bool}
    (h : readExponentDigits negative n exponent up s = .ok (v, t)) :
    ∃ d, Digits d ∧ s = d ++ t := by
  obtain ⟨b, r, rfl, first, rfl | rfl⟩ := readExponentDigits_eq_ok h
  · obtain ⟨d, all, others⟩ := absorb_spec 2147483647 (digitValue b) r
    exact ⟨b :: d, .cons first others, congrArg (b :: ·) all⟩
  · obtain ⟨d, all, others⟩ := digits_absorb 2147483647 (digitValue b) r
    exact ⟨b :: d, .cons first others, congrArg (b :: ·) all⟩

theorem exponent_of_readExponent {mark : UInt8} (e : mark = ascii 'e' ∨ mark = ascii 'E')
    (h : readExponent negative n exponent s = .ok (v, t)) :
    ∃ x, Exponent x ∧ mark :: s = x ++ t := by
  have signed : ∃ up sign r, readExponentDigits negative n exponent up r = .ok (v, t) ∧
      s = sign ++ r ∧ (sign = [] ∨ sign = [ascii '+'] ∨ sign = [ascii '-']) := by
    unfold readExponent at h
    grind
  obtain ⟨up, sign, r, read, rfl, known⟩ := signed
  obtain ⟨d, digits, rfl⟩ := digits_of_readExponentDigits read
  exact ⟨_, .some e known digits, by simp⟩

theorem exponent_of_readScale (h : readScale negative n exponent s = .ok (v, t)) :
    ∃ x, Exponent x ∧ s = x ++ t := by
  have scale : (∃ mark r, s = mark :: r ∧ (mark = ascii 'e' ∨ mark = ascii 'E') ∧
      readExponent negative n exponent r = .ok (v, t)) ∨
      endDouble negative n exponent s = .ok (v, t) := by
    unfold readScale at h
    grind
  rcases scale with ⟨mark, r, rfl, e, read⟩ | ended
  · exact exponent_of_readExponent e read
  · exact ⟨[], .none, (rest_of_endDouble ended).symm⟩

theorem fraction_of_readFraction (h : readFraction negative n exponent s = .ok (v, t)) :
    ∃ d x, Digits d ∧ Exponent x ∧ s = d ++ (x ++ t) := by
  unfold readFraction at h
  split at h
  · rename_i starts
    dsimp only at h
    obtain ⟨x, power, rest⟩ := exponent_of_readScale h
    obtain ⟨d, all, digits⟩ := digits_absorb (2 ^ 64 - 1) n s
    refine ⟨d, x, ⟨?_, digits⟩, power, by rw [← rest]; exact all⟩
    rintro rfl
    rw [all, List.nil_append, startsDigit_dropDigits] at starts
    cases starts
  · cases h

theorem parts_of_readAfterWhole {extra : Nat}
    (h : readAfterWhole negative n extra s = .ok (v, t)) :
    ∃ f x, Fraction f ∧ Exponent x ∧ s = f ++ (x ++ t) := by
  have after : (∃ r, s = ascii '.' :: r ∧ readFraction negative n extra r = .ok (v, t)) ∨
      s = t ∨ readScale negative n extra s = .ok (v, t) := by
    unfold readAfterWhole at h
    grind
  rcases after with ⟨r, rfl, read⟩ | rfl | read
  · obtain ⟨d, x, digits, power, rfl⟩ := fraction_of_readFraction read
    exact ⟨_, x, .some digits, power, by simp⟩
  · exact ⟨[], [], .none, .none, rfl⟩
  · obtain ⟨x, power, same⟩ := exponent_of_readScale read
    exact ⟨[], x, .none, power, same⟩

theorem parts_of_readNumeral (h : readNumeral negative s = .ok (v, t)) :
    ∃ w f x, Whole w ∧ Fraction f ∧ Exponent x ∧ s = w ++ (f ++ (x ++ t)) := by
  have start : (∃ r, s = ascii '0' :: r ∧ readAfterWhole negative 0 0 r = .ok (v, t)) ∨
      ∃ b r m extra, s = b :: r ∧ b ≠ ascii '0' ∧ isDigit b = true ∧
        readAfterWhole negative m extra
          ((absorb (2 ^ 64 - 1) (digitValue b) r).2.dropWhile isDigit) = .ok (v, t) := by
    unfold readNumeral at h
    grind
  rcases start with ⟨r, rfl, read⟩ | ⟨b, r, m, extra, rfl, nonzero, first, read⟩
  · obtain ⟨f, x, fraction, power, rfl⟩ := parts_of_readAfterWhole read
    exact ⟨_, f, x, .zero, fraction, power, rfl⟩
  · obtain ⟨f, x, fraction, power, rest⟩ := parts_of_readAfterWhole read
    obtain ⟨d, all, digits⟩ := digits_absorb (2 ^ 64 - 1) (digitValue b) r
    rw [rest] at all
    exact ⟨b :: d, f, x, .digits nonzero (.cons first digits), fraction, power,
      congrArg (b :: ·) all⟩

/-- What is read as a number is one of the grammar. -/
theorem literal_of_readNumber {expected : String} (h : readNumber expected s = .ok (v, t)) :
    ∃ literal, Literal literal ∧ Gap s (literal ++ t) := by
  have sign : (∃ r, skipSpace s = ascii '-' :: r ∧ readNumeral true r = .ok (v, t)) ∨
      readNumeral false (skipSpace s) = .ok (v, t) := by
    unfold readNumber at h
    grind
  have gap := gap_skipSpace s
  rcases sign with ⟨r, front, read⟩ | read
  · obtain ⟨w, f, x, whole, fraction, power, rfl⟩ := parts_of_readNumeral read
    refine ⟨_, .negative whole fraction power, ?_⟩
    simpa [front] using gap
  · obtain ⟨w, f, x, whole, fraction, power, same⟩ := parts_of_readNumeral read
    refine ⟨_, .positive whole fraction power, ?_⟩
    simpa [same] using gap

end

/-! ## Values -/

/-- A reader accepts forms of the grammar only. -/
def Recognizes (read : Bytes → Outcome α) : Prop :=
  ∀ ⦃s t : Bytes⦄ ⦃a : α⦄, read s = .ok (a, t) → ∃ x r, Gap s r ∧ Written x r t

theorem ok_of_convert {f : α → Except Cause β} {found : Outcome α} {b : β} {t : Bytes}
    (h : convert f found = .ok (b, t)) : ∃ a, found = .ok (a, t) ∧ f a = .ok b := by
  unfold convert at h
  split at h
  · cases h
  · rename_i a r
    split at h
    · rename_i converted
      cases h
      exact ⟨a, rfl, converted⟩
    · cases h

theorem Recognizes.convert {read : Bytes → Outcome α} (h : Recognizes read)
    (f : α → Except Cause β) : Recognizes fun s => Json.convert f (read s) := by
  intro s t b converted
  obtain ⟨a, found, -⟩ := ok_of_convert converted
  exact h found

theorem recognizes_readString (expected : String) : Recognizes (readString expected) := by
  intro s t text h
  have quoted : ∃ r, skipSpace s = ascii '"' :: r ∧ readText r = .ok (text, t) := by
    unfold readString at h
    grind
  obtain ⟨r, front, read⟩ := quoted
  obtain ⟨cs, -, spelled⟩ := spelled_of_readText read
  exact ⟨_, _, gap_of_skipSpace front, .text spelled⟩

theorem recognizes_readNumber (expected : String) : Recognizes (readNumber expected) := by
  intro s t n h
  obtain ⟨literal, written, gap⟩ := literal_of_readNumber h
  exact ⟨_, _, gap, .number written⟩

theorem recognizes_string : Recognizes (Scalar.read (α := String)) := recognizes_readString _

theorem recognizes_double : Recognizes (Scalar.read (α := Double)) :=
  (recognizes_readNumber _).convert _

theorem whole_eq_ok_iff {read : Bytes → Outcome α} {s : Bytes} {a : α} :
    whole read s = .ok a ↔ ∃ t, read s = .ok (a, t) ∧ Gap t [] := by
  unfold whole
  constructor
  · intro accepted
    grind [gap_of_skipSpace]
  · rintro ⟨t, found, blank⟩
    rw [found]
    simp only [blank.skipSpace_eq]
    rfl

theorem Recognizes.document {read : Bytes → Outcome α} (h : Recognizes read) {s : Bytes} {a : α}
    (accepted : whole read s = .ok a) : ∃ x, Document x s := by
  obtain ⟨t, found, after⟩ := whole_eq_ok_iff.mp accepted
  obtain ⟨x, r, before, written⟩ := h found
  exact ⟨x, before, written, after⟩

end MetricLedger.Json
