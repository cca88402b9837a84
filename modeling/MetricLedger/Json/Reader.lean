import MetricLedger.Json.Fault

/-!
# Reading JSON text

A reader takes the text still to be read and returns a value and what follows it. Numbers are read
the fast way: the digits that fit 64 bits form a whole number, which is rounded to a double and
then multiplied or divided by a power of ten, rounding again.
-/

namespace MetricLedger.Json

open scoped MetricLedger.Natural

/-- What reading the front of a text gives: a value and the rest. -/
abbrev Outcome (α : Type) := Except Fault (α × Bytes)

def isSpace (b : UInt8) : Bool := b == 0x20 || b == 0x0A || b == 0x0D || b == 0x09

def skipSpace (s : Bytes) : Bytes := s.dropWhile isSpace

def isDigit (b : UInt8) : Bool := 0x30 ≤ b && b ≤ 0x39

def digitValue (b : UInt8) : Nat := b.toNat - 48

def startsDigit (s : Bytes) : Bool := s.head?.any isDigit

/-! ## Words -/

/-- Reads the bytes of a word, one by one. -/
def readWord : (word : Bytes) → Bytes → Except Fault Bytes
  | [], s => .ok s
  | _ :: _, [] => .error ⟨.endInValue, []⟩
  | w :: word, b :: s => if b = w then readWord word s else .error ⟨.wantsWord, s⟩

/-! ## Text -/

open Text.Hex (byteValue?) in
/-- Four hexadecimal digits. -/
def readQuad : Bytes → Outcome Nat
  | a :: b :: c :: d :: s =>
    match byteValue? a, byteValue? b, byteValue? c, byteValue? d with
    | some a, some b, some c, some d => .ok (((a * 16 + b) * 16 + c) * 16 + d, s)
    | _, _, _, _ => .error ⟨.badEscape, s⟩
  | _ => .error ⟨.endInText, []⟩

/-- The second half of a surrogate pair, with its own escape. -/
def readTrail (lead : Nat) : Bytes → Outcome Char
  | [] => .error ⟨.endInText, []⟩
  | b :: s =>
    if b ≠ ascii '\\' then .error ⟨.cutSurrogate, s⟩
    else match s with
      | [] => .error ⟨.endInText, []⟩
      | b :: s =>
        if b ≠ ascii 'u' then .error ⟨.cutSurrogate, s⟩
        else match readQuad s with
          | .error f => .error f
          | .ok (trail, s) =>
            if trail < 0xDC00 ∨ 0xDFFF < trail then .error ⟨.loneSurrogate, s⟩
            else .ok (Char.ofNat ((lead - 0xD800) * 0x400 + (trail - 0xDC00) + 0x10000), s)

/-- The character of a numeric escape, whose `u` has been read. -/
def readCodePoint (s : Bytes) : Outcome Char :=
  match readQuad s with
  | .error f => .error f
  | .ok (n, s) =>
    if 0xDC00 ≤ n ∧ n ≤ 0xDFFF then .error ⟨.loneSurrogate, s⟩
    else if 0xD800 ≤ n ∧ n ≤ 0xDBFF then readTrail n s
    else .ok (Char.ofNat n, s)

/-- The characters that a letter after a backslash stands for. -/
def shortEscape? (b : UInt8) : Option Char :=
  if b = ascii '"' then some '"'
  else if b = ascii '\\' then some '\\'
  else if b = ascii '/' then some '/'
  else if b = ascii 'b' then some '\x08'
  else if b = ascii 'f' then some '\x0c'
  else if b = ascii 'n' then some '\n'
  else if b = ascii 'r' then some '\r'
  else if b = ascii 't' then some '\t'
  else none

/-- An escape whose backslash has been read. -/
def readEscape : Bytes → Outcome Char
  | [] => .error ⟨.endInText, []⟩
  | b :: s =>
    match shortEscape? b with
    | some c => .ok (c, s)
    | none => if b = ascii 'u' then readCodePoint s else .error ⟨.badEscape, s⟩

theorem readQuad_length {s r : Bytes} {n : Nat} (h : readQuad s = .ok (n, r)) :
    r.length < s.length := by
  unfold readQuad at h
  split at h
  · split at h <;> simp_all
    omega
  · simp at h

theorem readTrail_length {s r : Bytes} {n : Nat} {c : Char} (h : readTrail n s = .ok (c, r)) :
    r.length < s.length := by
  unfold readTrail at h
  split at h
  · simp at h
  · split at h
    · simp at h
    · split at h
      · simp at h
      · split at h
        · simp at h
        · split at h
          · simp at h
          · rename_i quad
            have := readQuad_length quad
            split at h <;> simp_all
            omega

theorem readCodePoint_length {s r : Bytes} {c : Char} (h : readCodePoint s = .ok (c, r)) :
    r.length < s.length := by
  unfold readCodePoint at h
  split at h
  · simp at h
  · rename_i quad
    have := readQuad_length quad
    split at h
    · simp at h
    · split at h
      · have := readTrail_length h; omega
      · simp_all

theorem readEscape_length {s r : Bytes} {c : Char} (h : readEscape s = .ok (c, r)) :
    r.length < s.length := by
  unfold readEscape at h
  split at h
  · simp at h
  · split at h
    · simp_all
    · split at h
      · have := readCodePoint_length h; simp only [List.length_cons]; omega
      · simp at h

/-- The characters of a text up to its closing quote, after those already `done`, which are kept in
reverse. Bytes that are no characters are told of where the run of plain characters ends that they
stand in; `broken` is what follows the first byte of the first such place in the current run. -/
def readChars (done : List Char) (broken : Option Bytes) : Bytes → Outcome (List Char)
  | [] => .error ⟨.endInText, []⟩
  | b :: s =>
    if b = ascii '"' then
      match broken with
      | some place => .error ⟨.badCodePoint, place⟩
      | none => .ok (done.reverse, s)
    else if b = ascii '\\' then
      match broken with
      | some place => .error ⟨.badCodePoint, place⟩
      | none =>
        match _esc : readEscape s with
        | .error f => .error f
        | .ok (c, r) => readChars (c :: done) none r
    else if b < 0x20 then .error ⟨.controlCharacter, s⟩
    else
      match Text.Utf8.piece b s with
      | (some c, more) => readChars (c :: done) broken (s.drop more)
      | (none, more) => readChars done (broken <|> some s) (s.drop more)
termination_by s => s.length
decreasing_by
  · have := readEscape_length _esc; simp only [List.length_cons]; omega
  · simp only [List.length_cons, List.length_drop]; omega
  · simp only [List.length_cons, List.length_drop]; omega

/-- A text whose opening quote has been read. -/
def readText (s : Bytes) : Outcome String :=
  (readChars [] none s).map fun (cs, r) => (String.ofList cs, r)

/-! ## Numbers -/

/-- Appends leading digits of the text to `n` while the number stays within `limit`. -/
def absorb (limit n : Nat) : Bytes → Nat × Bytes
  | [] => (n, [])
  | b :: s =>
    if isDigit b && n * 10 + digitValue b ≤ limit then absorb limit (n * 10 + digitValue b) s
    else (n, b :: s)

/-- Divides by a power of ten, in steps where it is too large for one double. -/
def shrink (x : Double) (places : Nat) : Double :=
  if places ≤ 308 then x.div (.ofNat (10 ^ places))
  else if x.isZero then x
  else shrink (x.div (.ofNat (10 ^ (308 : Nat)))) (places - 308)
termination_by places
decreasing_by omega

/-- The double of `significand * 10 ^ exponent`, unless it is too large. -/
def scaled? (significand : Nat) (exponent : Int) : Option Double :=
  if exponent < 0 then some (shrink (.ofNat significand) exponent.natAbs)
  else if significand = 0 then some (.ofNat 0)
  else if 308 < exponent then none
  else
    let x := (Double.ofNat significand).mul (.ofNat (10 ^ exponent.toNat))
    if x.isFinite then some x else none

def signed (negative : Bool) (x : Double) : Double := if negative then x.negate else x

/-- Ends a number that is no whole number. -/
def endDouble (negative : Bool) (significand : Nat) (exponent : Int) (s : Bytes) :
    Outcome Numeral :=
  match scaled? significand exponent with
  | some x => .ok (.double (signed negative x), s)
  | none => .error ⟨.numberTooLarge, s⟩

/-- The digits of an exponent, at least one. Where they no longer fit 32 bits the number is out of
range or zero, whatever follows. -/
def readExponentDigits (negative : Bool) (significand : Nat) (exponent : Int) (up : Bool) :
    Bytes → Outcome Numeral
  | [] => .error ⟨.endInValue, []⟩
  | b :: s =>
    if isDigit b then
      let (n, r) := absorb 2147483647 (digitValue b) s
      if startsDigit r then
        if significand ≠ 0 ∧ up then .error ⟨.numberTooLarge, r.tail⟩
        else .ok (.double (signed negative (.ofNat 0)), r.dropWhile isDigit)
      else endDouble negative significand (if up then exponent + n else exponent - n) r
    else .error ⟨.badNumber, s⟩

/-- An exponent whose letter has been read. -/
def readExponent (negative : Bool) (significand : Nat) (exponent : Int) (s : Bytes) :
    Outcome Numeral :=
  match s with
  | b :: r =>
    if b = ascii '+' then readExponentDigits negative significand exponent true r
    else if b = ascii '-' then readExponentDigits negative significand exponent false r
    else readExponentDigits negative significand exponent true s
  | [] => readExponentDigits negative significand exponent true []

/-- What may follow the digits of a number that is no whole number. -/
def readScale (negative : Bool) (significand : Nat) (exponent : Int) (s : Bytes) :
    Outcome Numeral :=
  match s with
  | b :: r =>
    if b = ascii 'e' ∨ b = ascii 'E' then readExponent negative significand exponent r
    else endDouble negative significand exponent s
  | [] => endDouble negative significand exponent []

/-- A fraction whose point has been read. Digits that no longer fit are passed over. -/
def readFraction (negative : Bool) (significand : Nat) (exponent : Int) (s : Bytes) :
    Outcome Numeral :=
  if startsDigit s then
    let (n, r) := absorb (2 ^ (64 : Nat) - 1) significand s
    readScale negative n (exponent - (s.length - r.length : Nat)) (r.dropWhile isDigit)
  else .error ⟨if s.isEmpty then .endInValue else .badNumber, s.tail⟩

/-- A number without point and exponent, if it fits 64 bits. Minus zero is a double. -/
def wholeNumeral (negative : Bool) (n : Nat) : Numeral :=
  if negative then
    if 1 ≤ n ∧ n ≤ 2 ^ (63 : Nat) then .negative n else .double (Double.ofNat n).negate
  else .natural n

/-- What may follow the whole part of a number, `extra` digits of which did not fit. -/
def readAfterWhole (negative : Bool) (n extra : Nat) (s : Bytes) : Outcome Numeral :=
  match s with
  | b :: r =>
    if b = ascii '.' then readFraction negative n extra r
    else if extra = 0 ∧ b ≠ ascii 'e' ∧ b ≠ ascii 'E' then .ok (wholeNumeral negative n, s)
    else readScale negative n extra s
  | [] => if extra = 0 then .ok (wholeNumeral negative n, []) else readScale negative n extra []

/-- A number whose sign has been read. -/
def readNumeral (negative : Bool) : Bytes → Outcome Numeral
  | [] => .error ⟨.endInValue, []⟩
  | b :: s =>
    if b = ascii '0' then
      if startsDigit s then .error ⟨.badNumber, s.tail⟩ else readAfterWhole negative 0 0 s
    else if isDigit b then
      let (n, r) := absorb (2 ^ (64 : Nat) - 1) (digitValue b) s
      let rest := r.dropWhile isDigit
      readAfterWhole negative n (r.length - rest.length) rest
    else .error ⟨.badNumber, s⟩

/-! ## Lengths -/

theorem skipSpace_length (s : Bytes) : (skipSpace s).length ≤ s.length :=
  (List.dropWhile_sublist _).length_le

theorem dropDigits_length (s : Bytes) : (s.dropWhile isDigit).length ≤ s.length :=
  (List.dropWhile_sublist _).length_le

theorem readWord_length {word s r : Bytes} (h : readWord word s = .ok r) :
    r.length ≤ s.length := by
  induction word generalizing s with
  | nil => simp [readWord] at h; simp [h]
  | cons w word ih =>
    cases s with
    | nil => simp [readWord] at h
    | cons b s =>
      unfold readWord at h
      split at h
      · have := ih h; simp only [List.length_cons]; omega
      · simp at h

theorem readChars_length {done cs : List Char} {broken : Option Bytes} {s r : Bytes}
    (h : readChars done broken s = .ok (cs, r)) : r.length < s.length := by
  fun_induction readChars done broken s <;>
    grind [→ readEscape_length, List.length_drop]

theorem readText_length {s r : Bytes} {text : String} (h : readText s = .ok (text, r)) :
    r.length < s.length := by
  unfold readText at h
  cases read : readChars [] none s with
  | error => rw [read] at h; cases h
  | ok pair =>
    have := @readChars_length _ pair.1 _ _ pair.2 read
    rw [read] at h; cases h; exact this

theorem absorb_length (limit n : Nat) (s : Bytes) : (absorb limit n s).2.length ≤ s.length := by
  fun_induction absorb limit n s with
  | case1 => simp
  | case2 _ _ _ _ ih => simp only [List.length_cons]; omega
  | case3 => simp

theorem endDouble_length {negative : Bool} {n : Nat} {e : Int} {s r : Bytes} {v : Numeral}
    (h : endDouble negative n e s = .ok (v, r)) : r.length ≤ s.length := by
  unfold endDouble at h; split at h <;> simp_all

theorem readExponentDigits_length {negative up : Bool} {n : Nat} {e : Int} {s r : Bytes}
    {v : Numeral} (h : readExponentDigits negative n e up s = .ok (v, r)) :
    r.length ≤ s.length := by
  unfold readExponentDigits at h
  split at h
  · simp at h
  · rename_i b s
    split at h
    · have absorbed := absorb_length 2147483647 (digitValue b) s
      revert h absorbed
      generalize absorb 2147483647 (digitValue b) s = pair
      obtain ⟨m, t⟩ := pair
      intro h absorbed
      have dropped := dropDigits_length t
      simp only [List.length_cons] at *
      split at h
      · split at h
        · simp at h
        · simp only [Except.ok.injEq, Prod.mk.injEq] at h; rw [← h.2]; omega
      · have := endDouble_length h; omega
    · simp at h

theorem readExponent_length {negative : Bool} {n : Nat} {e : Int} {s r : Bytes} {v : Numeral}
    (h : readExponent negative n e s = .ok (v, r)) : r.length ≤ s.length := by
  unfold readExponent at h
  split at h
  · split at h
    · have := readExponentDigits_length h; simp only [List.length_cons]; omega
    · split at h
      · have := readExponentDigits_length h; simp only [List.length_cons]; omega
      · exact readExponentDigits_length h
  · exact readExponentDigits_length h

theorem readScale_length {negative : Bool} {n : Nat} {e : Int} {s r : Bytes} {v : Numeral}
    (h : readScale negative n e s = .ok (v, r)) : r.length ≤ s.length := by
  unfold readScale at h
  split at h
  · split at h
    · have := readExponent_length h; simp only [List.length_cons]; omega
    · exact endDouble_length h
  · exact endDouble_length h

theorem readFraction_length {negative : Bool} {n : Nat} {e : Int} {s r : Bytes} {v : Numeral}
    (h : readFraction negative n e s = .ok (v, r)) : r.length ≤ s.length := by
  unfold readFraction at h
  split at h
  · have := readScale_length h
    have := dropDigits_length (absorb (2 ^ (64 : Nat) - 1) n s).2
    have := absorb_length (2 ^ (64 : Nat) - 1) n s
    omega
  · simp at h

theorem readAfterWhole_length {negative : Bool} {n extra : Nat} {s r : Bytes} {v : Numeral}
    (h : readAfterWhole negative n extra s = .ok (v, r)) : r.length ≤ s.length := by
  unfold readAfterWhole at h
  split at h
  · split at h
    · have := readFraction_length h; simp only [List.length_cons]; omega
    · split at h
      · simp_all
      · exact readScale_length h
  · split at h
    · simp_all
    · exact readScale_length h

theorem readNumeral_length {negative : Bool} {s r : Bytes} {v : Numeral}
    (h : readNumeral negative s = .ok (v, r)) : r.length < s.length := by
  unfold readNumeral at h
  split at h
  · simp at h
  · rename_i b s
    split at h
    · split at h
      · simp at h
      · have := readAfterWhole_length h; simp only [List.length_cons]; omega
    · split at h
      · have := readAfterWhole_length h
        have := dropDigits_length (absorb (2 ^ (64 : Nat) - 1) (digitValue b) s).2
        have := absorb_length (2 ^ (64 : Nat) - 1) (digitValue b) s
        simp only [List.length_cons]; omega
      · simp at h

end MetricLedger.Json
