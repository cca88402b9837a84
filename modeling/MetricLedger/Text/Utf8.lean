/-!
# UTF-8

Texts travel as lists of bytes. `encode` writes characters, `decode?` reads well-formed bytes back
and `decodeLossy` reads any bytes, with one replacement character for each maximal piece that
cannot begin or continue a character.
-/

namespace MetricLedger

/-- The bytes of a message, a body or a line. -/
abbrev Bytes := List UInt8

/-- The byte of a character below U+0080. -/
abbrev ascii (c : Char) : UInt8 := c.toNat.toUInt8

namespace Text.Utf8

def encodeChar (c : Char) : Bytes :=
  let n := c.toNat
  if n < 0x80 then [n.toUInt8]
  else if n < 0x800 then [(0xC0 + n / 64).toUInt8, (0x80 + n % 64).toUInt8]
  else if n < 0x10000 then
    [(0xE0 + n / 4096).toUInt8, (0x80 + n / 64 % 64).toUInt8, (0x80 + n % 64).toUInt8]
  else
    [(0xF0 + n / 262144).toUInt8, (0x80 + n / 4096 % 64).toUInt8, (0x80 + n / 64 % 64).toUInt8,
      (0x80 + n % 64).toUInt8]

def encode (cs : List Char) : Bytes := cs.flatMap encodeChar

/-- How many bytes a character takes, by its first byte; `none` for a byte that begins none. -/
def width? (b : UInt8) : Option Nat :=
  if b < 0x80 then some 1
  else if 0xC2 ≤ b && b < 0xE0 then some 2
  else if 0xE0 ≤ b && b < 0xF0 then some 3
  else if 0xF0 ≤ b && b < 0xF5 then some 4
  else none

/-- Whether `b` may stand second after `lead`: no overlong form, no surrogate, nothing past
the last code point. -/
def allowsSecond (lead b : UInt8) : Bool :=
  if lead == 0xE0 then 0xA0 ≤ b && b < 0xC0
  else if lead == 0xED then 0x80 ≤ b && b < 0xA0
  else if lead == 0xF0 then 0x90 ≤ b && b < 0xC0
  else if lead == 0xF4 then 0x80 ≤ b && b < 0x90
  else 0x80 ≤ b && b < 0xC0

def isTail (b : UInt8) : Bool := 0x80 ≤ b && b < 0xC0

/-- The first piece of a nonempty text: a character, or a malformed piece, and how many bytes
after the first belong to it. -/
def piece (b : UInt8) (rest : Bytes) : Option Char × Nat :=
  match width? b with
  | none => (none, 0)
  | some 1 => (some (Char.ofNat b.toNat), 0)
  | some 2 =>
    match rest with
    | c :: _ =>
      if allowsSecond b c then
        (some (Char.ofNat ((b.toNat - 0xC0) * 64 + (c.toNat - 0x80))), 1)
      else (none, 0)
    | [] => (none, 0)
  | some 3 =>
    match rest with
    | c :: d :: _ =>
      if allowsSecond b c then
        if isTail d then
          (some (Char.ofNat
            ((b.toNat - 0xE0) * 4096 + (c.toNat - 0x80) * 64 + (d.toNat - 0x80))), 2)
        else (none, 1)
      else (none, 0)
    | [c] => (none, if allowsSecond b c then 1 else 0)
    | [] => (none, 0)
  | some _ =>
    match rest with
    | c :: d :: e :: _ =>
      if allowsSecond b c then
        if isTail d then
          if isTail e then
            (some (Char.ofNat ((b.toNat - 0xF0) * 262144 + (c.toNat - 0x80) * 4096
              + (d.toNat - 0x80) * 64 + (e.toNat - 0x80))), 3)
          else (none, 2)
        else (none, 1)
      else (none, 0)
    | [c, d] => (none, if allowsSecond b c then if isTail d then 2 else 1 else 0)
    | [c] => (none, if allowsSecond b c then 1 else 0)
    | [] => (none, 0)

/-- The pieces of a text in order, put in front of the reversed `done`. -/
def pieces (done : List (Option Char)) : Bytes → List (Option Char)
  | [] => done.reverse
  | b :: rest => pieces ((piece b rest).1 :: done) (rest.drop (piece b rest).2)
termination_by s => s.length
decreasing_by simp only [List.length_cons, List.length_drop]; omega

/-- The characters of well-formed UTF-8. -/
def decode? (s : Bytes) : Option (List Char) := (pieces [] s).mapM id

/-- Where a text stops being UTF-8, and how many bytes are malformed there; none are where the text
ends within a character. -/
structure Malformed where
  place : Nat
  length : Option Nat
deriving DecidableEq, Repr

def Malformed.message (m : Malformed) : String :=
  match m.length with
  | some n => s!"invalid utf-8 sequence of {n} bytes from index {m.place}"
  | none => s!"incomplete utf-8 byte sequence from index {m.place}"

/-- The first malformed piece of a text that follows `place` bytes. -/
def malformed? (place : Nat) : Bytes → Option Malformed
  | [] => none
  | b :: rest =>
    match piece b rest with
    | (some _, n) => malformed? (place + n + 1) (rest.drop n)
    | (none, n) =>
      let unfinished := rest.length = n ∧ n + 1 < (width? b).getD 0
      some ⟨place, if unfinished then none else some (n + 1)⟩
termination_by s => s.length
decreasing_by simp only [List.length_cons, List.length_drop]; omega

/-- The characters of any bytes, U+FFFD standing for each malformed piece. -/
def decodeLossy (s : Bytes) : List Char := (pieces [] s).map (·.getD '\uFFFD')

end Text.Utf8

/-- The UTF-8 of a text. -/
def Bytes.ofString (s : String) : Bytes := Text.Utf8.encode s.toList

/-- The length of a text in bytes. -/
def Text.byteLength (s : String) : Nat := (Bytes.ofString s).length

end MetricLedger
