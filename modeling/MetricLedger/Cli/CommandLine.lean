import MetricLedger.Cli.Fault
import MetricLedger.Metric.Measurement
import MetricLedger.Text.Pieces
import MetricLedger.Text.Similarity

/-!
# Command lines

A command line is read from the left. A named argument starts with two dashes, or with one and a
letter; behind two dashes alone everything is positional. The value of an argument is taken when the
next argument comes or the line ends, and that of an argument before a command after the command's
own arguments; so of two faults the one that comes to light first is told.
-/

namespace MetricLedger.Cli

/-- An argument that was given. A switch has no value, nor has one whose text is no value. -/
structure Given where
  arg : Arg
  value : Option Value
deriving DecidableEq, Repr

/-- How far the arguments of a command have been read. -/
structure Reading where
  given : List Given := []
  /-- The last argument, and its text, while it has not been taken. -/
  pending : Option (Arg × Option String) := none
  /-- The pending argument waits for its text. -/
  awaiting : Bool := false
  /-- Two dashes were read. -/
  trailing : Bool := false
  /-- How many positional arguments were read. -/
  position : Nat := 0
deriving DecidableEq, Repr

/-- Why reading stops before the program runs. -/
inductive Stop
  | help (command : Command) (long : Bool)
  | version
  | fault (fault : Fault)
deriving DecidableEq, Repr

def Arg.kind : Arg → ValueKind
  | .named ⟨_, _, .value kind _, _, _, _⟩ => kind
  | .named _ => .text
  | .positional p => p.kind

namespace Reading

def has (r : Reading) (arg : Arg) : Bool := r.given.any (·.arg == arg)

/-- The named arguments that were given, in order. -/
def named (r : Reading) : List Named :=
  r.given.filterMap fun g =>
    match g.arg with
    | .named n => some n
    | .positional _ => none

/-- Adds an argument; it must not have been given before, and is forgotten if it was. -/
def add (r : Reading) (g : Given) : Reading × Option FaultKind :=
  if r.has g.arg then
    ({ r with given := r.given.filter (·.arg != g.arg) }, some (.repeated g.arg))
  else ({ r with given := r.given ++ [g] }, none)

/-- Takes a text as the value of an argument. -/
def take (r : Reading) (arg : Arg) (word : String) : Reading × Option FaultKind :=
  match arg.kind.read word with
  | .ok value => r.add ⟨arg, some value⟩
  | .error fault =>
    let (r, repeated) := r.add ⟨arg, none⟩
    (r, repeated.or (some (.badValue word arg fault)))

/-- Takes the pending argument, if there is one. -/
def settle (r : Reading) : Reading × Option FaultKind :=
  let settled := { r with pending := none }
  match r.pending with
  | none => (settled, none)
  | some (arg, none) => (settled, some (.noValue arg))
  | some (arg, some word) => settled.take arg word

/-- Goes on with what was read, unless there is a fault. -/
def checked (c : Command) : Reading × Option FaultKind → Except Stop Reading
  | (r, none) => .ok r
  | (_, some kind) => .error (.fault ⟨c, [], kind⟩)

/-- Does what an argument without a value does. -/
def perform (c : Command) (long : Bool) (n : Named) (r : Reading) : Except Stop Reading := do
  let r ← checked c r.settle
  match n.action with
  | .help => .error (.help c long)
  | .version => .error .version
  | _ => (checked c (r.add ⟨.named n, none⟩)).map fun r => { r with awaiting := false }

/-- Starts an argument with a value, which may be attached to it. -/
def start (c : Command) (n : Named) (attached : Option String) (r : Reading) :
    Except Stop Reading := do
  let r ← checked c r.settle
  match attached with
  | some word => (checked c (r.take (.named n) word)).map fun r => { r with awaiting := false }
  | none => .ok { r with pending := some (.named n, none), awaiting := true }

/-- The argument that has the most similar name, of this command or of one that follows. -/
def tip? (c : Command) (word : String) (rest : List String) : Option Tip :=
  let nearest (c : Command) : Option String :=
    (Text.Similarity.similar word (c.named.map (·.long))).getLast?
  let elsewhere (word : String) : Option Tip := do
    let sub ← c.sub? word
    let long ← nearest sub
    some (.elsewhere sub long)
  ((nearest c).map Tip.similar).or <|
    (rest.findSome? elsewhere).or <|
      if c.positionals.isEmpty then none else some .asValue

/-- The fault of a named argument that the command does not have. -/
def unknownLong (c : Command) (name : String) (rest : List String) (r : Reading) : Stop :=
  let tip := tip? c name rest
  let meant := match tip with
    | some (.similar long) => c.long? long
    | _ => none
  .fault ⟨c, r.settle.1.named ++ meant.toList, .unknown s!"--{name}" tip⟩

/-- Reads what follows two dashes. -/
def readLong (c : Command) (word : List Char) (rest : List String) (r : Reading) :
    Except Stop Reading :=
  let (name, attached) := match Text.cut? '=' word with
    | some (name, value) => (String.ofList name, some (String.ofList value))
    | none => (String.ofList word, none)
  match c.long? name with
  | none => .error (unknownLong c name rest r)
  | some n =>
    match n.action, attached with
    | .value .., _ => r.start c n attached
    | _, some value => .error (.fault ⟨c, r.named ++ [n], .needlessValue value n⟩)
    | _, none => r.perform c true n

/-- Reads letters behind one dash. The rest of them is the value of an argument that takes one. -/
def readShort (c : Command) : List Char → Reading → Except Stop Reading
  | [], r => .ok r
  | letter :: letters, r =>
    match c.short? letter with
    | none =>
      let tip := if c.positionals.isEmpty then none else some Tip.asValue
      .error (.fault ⟨c, [], .unknown s!"-{letter}" tip⟩)
    | some n =>
      match n.action, letters with
      | .value .., [] => r.start c n none
      | .value .., '=' :: value => r.start c n (some (String.ofList value))
      | .value .., value => r.start c n (some (String.ofList value))
      | _, _ => do readShort c letters (← r.perform c false n)

/-- Reads a positional argument. -/
def readPositional (c : Command) (word : String) (r : Reading) : Except Stop Reading :=
  match c.positionals[r.position]? with
  | some p => do
    let r ← checked c r.settle
    .ok { r with
      pending := some (.positional p, some word)
      awaiting := false
      position := r.position + 1 }
  | none =>
    let kind :=
      if r.trailing && (c.sub? word).isSome then FaultKind.needlessDashes word
      else if c.subcommands.isEmpty then .unknown word none
      else .unknownCommand word (Text.Similarity.similar word (c.subcommands.map (·.name)))
    .error (.fault ⟨c, [], kind⟩)

/-- Whether what follows a dash makes a negative number: digits, after which there may be one point
and one exponent without a sign. -/
def isNumber (cs : List Char) : Bool :=
  let isPart (c : Char) : Bool := Text.Digits.isDigit c || c == '.'
  let mantissa := cs.takeWhile isPart
  let fits := mantissa.count '.' ≤ 1 && mantissa.head? != some '.'
  match cs.drop mantissa.length with
  | [] => fits
  | 'e' :: exponent =>
    fits && !mantissa.isEmpty && !exponent.isEmpty && exponent.all Text.Digits.isDigit
  | _ => false

/-- Whether a text behind a dash is meant as the next positional argument. -/
def isNegative (c : Command) (cs : List Char) (r : Reading) : Bool :=
  (c.positionals[r.position]?.any (·.takesNegative)) && isNumber cs

/-- Reads a text that is no dash: the value that is waited for, or a positional argument. -/
def readText (c : Command) (word : String) (r : Reading) : Except Stop Reading :=
  match r.awaiting, r.pending with
  | true, some (arg, _) => .ok { r with pending := some (arg, some word), awaiting := false }
  | _, _ => r.readPositional c word

/-- Reads one text that calls no command; `rest` follows it. -/
def readWord (c : Command) (word : String) (rest : List String) (r : Reading) :
    Except Stop Reading :=
  match word.toList with
  | ['-', '-'] => .ok { r with trailing := true }
  | '-' :: '-' :: cs => r.readLong c cs rest
  | '-' :: letter :: letters =>
    if r.isNegative c (letter :: letters) then r.readText c word
    else r.readShort c (letter :: letters)
  | _ => r.readText c word

/-- Where reading of the help command ends. -/
def topic (c : Command) : List String → Stop
  | [] => .help c true
  | word :: words =>
    match c.sub? word with
    | some sub => topic sub words
    | none => .fault ⟨c, [], .unknownCommand word []⟩

/-- Reads the arguments of a command up to the end or to the next command, whose own are left. -/
def read (c : Command) (r : Reading) :
    List String → Except Stop (Reading × Option (Command × List String))
  | [] => .ok (r, none)
  | word :: rest =>
    if r.trailing then do read c (← r.readPositional c word) rest
    else
      match if r.awaiting then none else c.sub? word with
      | some .help => .error (topic c rest)
      | some sub => .ok (r, some (sub, rest))
      | none => do read c (← r.readWord c word rest) rest

/-- Takes what is pending and looks for positional arguments that are missing. -/
def finish (c : Command) (r : Reading) : Except Stop Reading := do
  let r ← checked c r.settle
  let missing := c.positionals.filter fun p => !r.has (.positional p)
  if missing.isEmpty then .ok r else .error (.fault ⟨c, [], .missing missing⟩)

def isOn (r : Reading) (n : Named) : Bool := r.has (.named n)

def value? (r : Reading) (arg : Arg) : Option Value :=
  (r.given.find? (·.arg == arg)).bind (·.value)

def text? (r : Reading) (arg : Arg) : Option String :=
  match r.value? arg with
  | some (.text s) => some s
  | _ => none

def natural? (r : Reading) (n : Named) : Option Nat :=
  match r.value? (.named n) with
  | some (.natural n) => some n
  | _ => none

def double? (r : Reading) (p : Positional) : Option Double :=
  match r.value? (.positional p) with
  | some (.double x) => some x
  | _ => none

end Reading

/-- What the program is asked to do. -/
inductive Order
  | serve (cors : Bool) (sampleInterval : Option UInt64)
  | migrate
  | record (m : Measurement)
  | query (name : Option String)
deriving DecidableEq, Repr

/-- A command line that is understood. -/
structure Invocation where
  host : String
  port : UInt16
  database : Settings.Database
  inMemory : Bool
  verbose : Bool
  debug : Bool
  order : Order
deriving DecidableEq, Repr

namespace Invocation

def orderOf (c : Command) (r : Reading) : Order :=
  match c with
  | .migrate => .migrate
  | .record =>
    let text (p : Positional) : String := (r.text? (.positional p)).getD ""
    .record ⟨text Command.metricName, text Command.metricType,
      (r.double? Command.metricValue).getD (.ofNat 0)⟩
  | .query => .query (r.text? (.named Command.nameFilter))
  | _ =>
    .serve (!r.isOn Command.noCors) ((r.natural? Command.sampleInterval).map (·.toUInt64))

/-- What was given, else what the environment says, else the defaults. -/
def ofReading (environment : String → Option String) (r : Reading) (order : Order) :
    Invocation where
  host := (r.text? (.named Command.host)).getD ({} : Settings.Listener).host
  port := ((r.natural? Command.port).map (·.toUInt16)).getD Settings.defaultPort
  database := {
    url := ((r.text? (.named Command.databaseUrl)).or
      (Command.databaseUrl.source.bind environment)).getD Settings.defaultUrl
    maxConnections := ((r.natural? Command.maxConnections).map (·.toUInt32)).getD
      Settings.defaultMaxConnections }
  inMemory := r.isOn Command.inMemory
  verbose := r.isOn Command.verbose
  debug := r.isOn Command.debug
  order

def parse (environment : String → Option String) (args : List String) :
    Except Stop Invocation := do
  let (r, next) ← Reading.read .main {} args
  match next with
  | none =>
    let r ← r.finish .main
    .ok (ofReading environment r (.serve true none))
  | some (c, rest) =>
    let (s, _) ← Reading.read c {} rest
    let s ← s.finish c
    let r ← r.finish .main
    .ok (ofReading environment r (orderOf c s))

end Invocation

end MetricLedger.Cli
