import MetricLedger.Text.Hex
import MetricLedger.Time.Rfc3339

/-!
# Log events

An event has a level, the name of the part of the program that it comes from, a message, and further
fields. Its line shows the level, the message without control characters that a terminal would obey,
and the fields.
-/

namespace MetricLedger.Log

inductive Level
  | error
  | warn
  | info
  | debug
  | trace
deriving DecidableEq, Repr

/-- How much a level lets through, more being more. -/
def Level.rank : Level → Nat
  | .error => 1
  | .warn => 2
  | .info => 3
  | .debug => 4
  | .trace => 5

def Level.text : Level → String
  | .error => "ERROR"
  | .warn => " WARN"
  | .info => " INFO"
  | .debug => "DEBUG"
  | .trace => "TRACE"

structure Event where
  level : Level
  target : String
  message : String
  fields : List (String × String) := []
deriving DecidableEq, Repr

/-- Control characters that terminals obey are shown by their numbers. -/
def shown (c : Char) : List Char :=
  if ['\x07', '\x08', '\x0c', '\x1b', '\x7f'].contains c then
    '\\' :: 'x' :: Text.Hex.digits 2 c.toNat
  else if 0x80 ≤ c.toNat && c.toNat < 0xA0 then
    '\\' :: 'u' :: '\x7b' :: Text.Hex.plain c.toNat ++ ['\x7d']
  else [c]

namespace Event

/-- The names of all that the event carries. -/
def names (e : Event) : List String := "message" :: e.fields.map Prod.fst

/-- The line that is written, behind the time. -/
def line (e : Event) : String :=
  let fields := e.fields.map fun (name, value) => s!" {name}={value}"
  s!"{e.level.text} {String.ofList (e.message.toList.flatMap shown)}{String.join fields}"

/-- The whole line of an event at a time. -/
def lineAt (t : Instant) (e : Event) : String := s!"{t.microsText} {e.line}\n"

end Event

end MetricLedger.Log
