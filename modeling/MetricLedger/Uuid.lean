import MetricLedger.Text.Hex
import MetricLedger.Text.Pieces
import MetricLedger.Text.Utf8

/-!
# Record identifiers

An identifier is 128 bits. It is written as five groups of lower-case digits and may be read in
either case, plain, hyphenated, in braces or as a `urn:uuid:` name.
-/

namespace MetricLedger

structure Uuid where
  bits : BitVec 128
deriving DecidableEq, Repr, Inhabited

namespace Uuid

/-- How many digits the groups of the hyphenated form have. -/
def groups : List Nat := [8, 4, 4, 4, 12]

/-- Digits cut into the five groups. -/
def hyphenate (digits : List Char) : List Char :=
  digits.take 8 ++ '-' :: ((digits.drop 8).take 4 ++ '-' :: ((digits.drop 12).take 4 ++
    '-' :: ((digits.drop 16).take 4 ++ '-' :: digits.drop 20)))

def chars (u : Uuid) : List Char := hyphenate (Text.Hex.digits 32 u.bits.toNat)

def text (u : Uuid) : String := String.ofList u.chars

/-- The identifier of random bits: six of them say that the others are random. -/
def ofRandom (bits : BitVec 128) : Uuid :=
  ⟨bits &&& 0xFFFFFFFFFFFF0FFF3FFFFFFFFFFFFFFF ||| 0x00000000000040008000000000000000⟩

/-- Why a text is no identifier. -/
inductive Fault
  | character (found : Char) (place : Nat)
  | length (found : Nat)
  | groupCount (found : Nat)
  | groupLength (group found : Nat)
deriving DecidableEq, Repr

def Fault.message : Fault → String
  | .character c place => s!"invalid character: found `{c}` at {place}"
  | .length n => s!"invalid length: expected length 32 for simple format, found {n}"
  | .groupCount n => s!"invalid group count: expected 5, found {n}"
  | .groupLength g n =>
    s!"invalid group length in group {g}: expected {groups.getD g 0}, found {n}"

/-- What a wrapping surrounds, and how many characters of the wrapping stand before it. -/
def unwrap? (cs : List Char) : Option (List Char × Nat) :=
  match cs with
  | '\x7b' :: rest => if rest.getLast? = some '\x7d' then some (rest.dropLast, 1) else none
  | _ =>
    if (cs.take 9).map Char.toLower = "urn:uuid:".toList then some (cs.drop 9, 9) else none

def ofDigits? (cs : List Char) : Option Uuid :=
  if cs.length = 32 then (Text.Hex.number? 0 cs).map fun n => ⟨BitVec.ofNat 128 n⟩ else none

def ofHyphenated? (cs : List Char) : Option Uuid :=
  let pieces := Text.split '-' cs
  if pieces.map List.length = groups then ofDigits? pieces.flatten else none

/-- The first character that is neither a digit nor a hyphen, and the byte where it begins. -/
def stray? (place : Nat) : List Char → Option (Char × Nat)
  | [] => none
  | c :: cs =>
    if c == '-' || Text.Hex.isDigit c then stray? (place + 1) cs else some (c, place)

/-- The first group of the wrong length. The last one is measured to the end of the text. -/
def wrongGroup (total : Nat) (pieces : List (List Char)) : Fault :=
  match ((pieces.map List.length).zip groups).zipIdx.find? fun ((n, wanted), g) =>
      g < 4 && n != wanted with
  | some ((n, _), g) => .groupLength g n
  | none => .groupLength 4 (total - 24)

def diagnose (cs : List Char) : Fault :=
  let (body, offset) := (unwrap? cs).getD (cs, 0)
  match stray? offset body with
  | some (c, place) => .character c place
  | none =>
    let pieces := Text.split '-' body
    if pieces.length = 1 ∧ (unwrap? cs).isNone then .length cs.length
    else if pieces.length ≠ 5 then .groupCount pieces.length
    else wrongGroup cs.length pieces

def parse (cs : List Char) : Except Fault Uuid :=
  let found := match unwrap? cs with
    | some (body, _) => ofHyphenated? body
    | none => (ofDigits? cs).orElse fun _ => ofHyphenated? cs
  match found with
  | some u => .ok u
  | none => .error (diagnose cs)

end Uuid

end MetricLedger
