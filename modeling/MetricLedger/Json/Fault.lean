import MetricLedger.Json.Number
import MetricLedger.Text.Quoted
import MetricLedger.Text.Utf8
import MetricLedger.Time.Rfc3339
import MetricLedger.Uuid

/-!
# Faults in JSON text

Why a text does not hold the value that was asked for, and where. A fault keeps what was still
unread at its place, so line and column are those of the end of the text before it.
-/

namespace MetricLedger.Json

/-- A number as it is written: without point, exponent or overflow it stays whole. -/
inductive Numeral
  | natural (n : Nat)
  | negative (n : Nat)
  | double (x : Double)
deriving DecidableEq, Repr

def Numeral.toDouble : Numeral → Double
  | .natural n => .ofNat n
  | .negative n => (Double.ofNat n).negate
  | .double x => x

def Numeral.describe : Numeral → String
  | .natural n => s!"integer `{n}`"
  | .negative n => s!"integer `-{n}`"
  | .double x => s!"floating point `{numberText x}`"

/-- The kind of a value that stands in the place of another. -/
inductive Kind
  | null
  | flag (b : Bool)
  | number (n : Numeral)
  | text (s : String)
  | list
  | object
deriving DecidableEq, Repr

def Kind.describe : Kind → String
  | .null => "null"
  | .flag b => s!"boolean `{b}`"
  | .number n => n.describe
  | .text s => s!"string {Text.Quoted.quote s}"
  | .list => "sequence"
  | .object => "map"

inductive Cause
  | endInValue
  | endInText
  | endInList
  | endInObject
  | wantsColon
  | wantsListEnd
  | wantsObjectEnd
  | wantsWord
  | wantsValue
  | wantsKey
  | badEscape
  | badNumber
  | numberTooLarge
  | badCodePoint
  | controlCharacter
  | loneSurrogate
  | cutSurrogate
  | trailingComma
  | trailingText
  | wrongKind (found : Kind) (expected : String)
  | outOfBounds (found : Numeral) (expected : String)
  | tooShort (length : Nat) (expected : String)
  | missing (key : String)
  | repeated (key : String)
  | unknown (key : String) (known : List String)
  | uuid (fault : Uuid.Fault)
  | instant (fault : Instant.Fault)
deriving DecidableEq, Repr

/-- The keys that would have been understood. -/
def oneOf : List String → String
  | [] => "there are no fields"
  | [a] => s!"expected `{a}`"
  | [a, b] => s!"expected `{a}` or `{b}`"
  | keys => "expected one of " ++ ", ".intercalate (keys.map fun k => s!"`{k}`")

def Cause.message : Cause → String
  | .endInValue => "EOF while parsing a value"
  | .endInText => "EOF while parsing a string"
  | .endInList => "EOF while parsing a list"
  | .endInObject => "EOF while parsing an object"
  | .wantsColon => "expected `:`"
  | .wantsListEnd => "expected `,` or `]`"
  | .wantsObjectEnd => "expected `,` or `\x7d`"
  | .wantsWord => "expected ident"
  | .wantsValue => "expected value"
  | .wantsKey => "key must be a string"
  | .badEscape => "invalid escape"
  | .badNumber => "invalid number"
  | .numberTooLarge => "number out of range"
  | .badCodePoint => "invalid unicode code point"
  | .controlCharacter => "control character (\\u0000-\\u001F) found while parsing a string"
  | .loneSurrogate => "lone leading surrogate in hex escape"
  | .cutSurrogate => "unexpected end of hex escape"
  | .trailingComma => "trailing comma"
  | .trailingText => "trailing characters"
  | .wrongKind found expected => s!"invalid type: {found.describe}, expected {expected}"
  | .outOfBounds found expected => s!"invalid value: {found.describe}, expected {expected}"
  | .tooShort n expected => s!"invalid length {n}, expected {expected}"
  | .missing key => s!"missing field `{key}`"
  | .repeated key => s!"duplicate field `{key}`"
  | .unknown key known => s!"unknown field `{key}`, {oneOf known}"
  | .uuid fault => s!"UUID parsing failed: {fault.message}"
  | .instant fault => fault.message

structure Fault where
  cause : Cause
  rest : Bytes
deriving DecidableEq, Repr

/-- The line and column of the end of a text, lines counted from 1 and columns in bytes. -/
def position (text : Bytes) : Nat × Nat :=
  (text.count (ascii '\n') + 1, (text.reverse.takeWhile (· != ascii '\n')).length)

/-- A cause and the line and column where it arose. -/
structure Located where
  cause : Cause
  line : Nat
  column : Nat
deriving DecidableEq, Repr

def Located.message (l : Located) : String :=
  s!"{l.cause.message} at line {l.line} column {l.column}"

/-- The fault's place in the whole text. -/
def Fault.locate (input : Bytes) (f : Fault) : Located :=
  let (line, column) := position (input.take (input.length - f.rest.length))
  ⟨f.cause, line, column⟩

end MetricLedger.Json
