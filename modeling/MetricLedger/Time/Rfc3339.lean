import MetricLedger.Text.Blank
import MetricLedger.Text.Digits
import MetricLedger.Text.Pieces
import MetricLedger.Time.Instant

/-!
# Written instants

Instants are written in the form of RFC 3339 with the shortest of no, three, six or nine decimals.
Reading is laxer: any white space before a number or a sign, one or two digits in a field, a space
or either case of `T` between date and time, and any offset, which is taken off.
-/

namespace MetricLedger.Instant

open scoped MetricLedger.Natural

open Text (trimStart isWhite)

/-- Why a text is no instant. -/
inductive Fault
  | outOfRange
  | impossible
  | invalid
  | tooShort
  | tooLong
deriving DecidableEq, Repr

def Fault.message : Fault → String
  | .outOfRange => "input is out of range"
  | .impossible => "no possible date and time matching input"
  | .invalid => "input contains invalid characters"
  | .tooShort => "premature end of input"
  | .tooLong => "trailing input"

/-- A year has four digits; one outside 0 to 9999 has a sign as well. -/
def yearText (year : Int) : List Char :=
  if 0 ≤ year ∧ year ≤ 9999 then Text.Digits.fixed 4 year.toNat
  else (if year < 0 then '-' else '+') :: Text.Digits.padded 4 year.natAbs

def fractionText (nanos : Nat) : List Char :=
  if nanos = 0 then []
  else if nanos % 1000000 = 0 then '.' :: Text.Digits.fixed 3 (nanos / 1000000)
  else if nanos % 1000 = 0 then '.' :: Text.Digits.fixed 6 (nanos / 1000)
  else '.' :: Text.Digits.fixed 9 nanos

/-- An instant, the nanoseconds of its second written as `fraction` says. -/
def charsWith (fraction : Nat → List Char) (t : Instant) : List Char :=
  let two := Text.Digits.fixed 2
  let (second, nanos) :=
    if t.nanos < 1000000000 then (t.secondOfDay % 60, t.nanos)
    else (t.secondOfDay % 60 + 1, t.nanos - 1000000000)
  yearText t.date.year ++ '-' :: two t.date.month ++ '-' :: two t.date.day ++
    'T' :: two (t.secondOfDay / 3600) ++ ':' :: two (t.secondOfDay / 60 % 60) ++
    ':' :: two second ++ fraction nanos ++ ['Z']

def chars (t : Instant) : List Char := t.charsWith fractionText

/-- The form with six decimals, whatever they are. -/
def microsText (t : Instant) : String :=
  String.ofList (t.charsWith fun nanos => '.' :: Text.Digits.fixed 6 (nanos / 1000))

def text (t : Instant) : String := String.ofList t.chars

/-- Reads the front of a text. -/
abbrev Scan (α : Type) := List Char → Except Fault (α × List Char)

def scanNumber (most : Nat) : Scan Nat := fun cs =>
  match Text.Digits.span most cs with
  | ([], rest) => .error (if rest.isEmpty then .tooShort else .invalid)
  | (ds, rest) => .ok (Text.Digits.number 0 ds, rest)

/-- A field of one or two digits within bounds, white space before it allowed. -/
def scanField (low high : Nat) : Scan Nat := fun cs => do
  let (n, rest) ← scanNumber 2 (trimStart cs)
  if low ≤ n ∧ n ≤ high then .ok (n, rest) else .error .outOfRange

/-- A mark with white space before it allowed. -/
def scanMark (mark : Char) (cs : List Char) : Except Fault (List Char) :=
  match trimStart cs with
  | [] => .error .tooShort
  | c :: rest => if c = mark then .ok rest else .error .invalid

/-- Four digits at most, or a sign and any number of digits. -/
def scanYear : Scan Int := fun cs => do
  let (year, rest) ← (match trimStart cs with
    | '-' :: cs => do let (n, rest) ← scanNumber cs.length cs; .ok (-(n : Int), rest)
    | '+' :: cs => do let (n, rest) ← scanNumber cs.length cs; .ok ((n : Int), rest)
    | cs => do let (n, rest) ← scanNumber 4 cs; .ok ((n : Int), rest))
  if -2147483648 ≤ year ∧ year ≤ 2147483647 then .ok (year, rest) else .error .outOfRange

/-- The decimals of a second as nanoseconds; digits after the ninth are passed over. -/
def scanFraction : Scan Nat := fun cs =>
  match cs with
  | '.' :: cs =>
    match Text.Digits.span 9 cs with
    | ([], rest) => .error (if rest.isEmpty then .tooShort else .invalid)
    | (ds, rest) =>
      .ok (Text.Digits.number 0 ds * 10 ^ (9 - ds.length), rest.dropWhile Text.Digits.isDigit)
  | _ => .ok (0, cs)

/-- Two digits side by side. -/
def scanPair : Scan (Nat × Nat) := fun cs =>
  match cs with
  | a :: b :: rest =>
    if Text.Digits.isDigit a && Text.Digits.isDigit b then
      .ok ((Text.Digits.value a, Text.Digits.value b), rest)
    else .error .invalid
  | [c] => .error (if c.toNat < 128 then .tooShort else .invalid)
  | [] => .error .tooShort

/-- The minutes of an offset that goes before or after universal time. -/
def scanOffsetSize : Scan Nat := fun cs => do
  let ((h, h'), rest) ← scanPair cs
  let ((m, m'), rest) ← scanPair (rest.dropWhile fun c => c == ':' || isWhite c)
  if m ≤ 5 then .ok ((h * 10 + h') * 60 + m * 10 + m', rest) else .error .outOfRange

/-- The minutes by which the written time is ahead of universal time. -/
def scanOffset : Scan Int := fun cs =>
  if (cs.take 3).map Char.toUpper = ['U', 'T', 'C'] then .ok (0, cs.drop 3)
  else match cs with
    | [] => .error .tooShort
    | c :: rest =>
      if c = 'Z' ∨ c = 'z' then .ok (0, rest)
      else if c = '+' then do let (n, rest) ← scanOffsetSize rest; .ok ((n : Int), rest)
      else if c = '-' ∨ c = '−' then do let (n, rest) ← scanOffsetSize rest; .ok (-(n : Int), rest)
      else .error .invalid

/-- The years that dates may fall in. -/
def knownYear (year : Int) : Bool := -262143 ≤ year && year ≤ 262142

/-- The instant of a local time, if the date exists and stays within the known years. -/
def ofLocal (date : Time.Date) (hour minute second nanos : Nat) (offset : Int) :
    Except Fault Instant :=
  if ¬ (date.Exists ∧ knownYear date.year) then .error .outOfRange
  else if 1440 ≤ offset.natAbs then .error .outOfRange
  else
    let leap := second == 60
    let second := if leap then 59 else second
    let seconds := date.dayNumber * 86400 + hour * 3600 + minute * 60 + second - offset * 60
    match ofSeconds? seconds (if leap then nanos + 1000000000 else nanos) with
    | some t => .ok t
    | none => .error .impossible

def parse (cs : List Char) : Except Fault Instant := do
  let (year, cs) ← scanYear cs
  let cs ← scanMark '-' cs
  let (month, cs) ← scanField 1 12 cs
  let cs ← scanMark '-' cs
  let (day, cs) ← scanField 1 31 cs
  let cs ← match cs with
    | [] => .error .tooShort
    | c :: rest => if c = 'T' ∨ c = 't' ∨ c = ' ' then .ok rest else .error .invalid
  let (hour, cs) ← scanField 0 23 cs
  let cs ← scanMark ':' cs
  let (minute, cs) ← scanField 0 59 cs
  let cs ← scanMark ':' cs
  let (second, cs) ← scanField 0 60 cs
  let (nanos, cs) ← scanFraction cs
  let (offset, cs) ← scanOffset (trimStart cs)
  if (trimStart cs).isEmpty then
    if nanos < 1000000000 then ofLocal ⟨year, month, day⟩ hour minute second nanos offset
    else .error .outOfRange
  else .error .tooLong

end MetricLedger.Instant
