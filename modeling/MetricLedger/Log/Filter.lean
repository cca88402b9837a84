import MetricLedger.Log.Event
import MetricLedger.Text.Blank
import MetricLedger.Text.Integer
import MetricLedger.Text.Pieces
import MetricLedger.Text.Utf8
import MetricLedger.Text.Words

/-!
# Filters of events

A filter is a list of directives between commas. A directive gives the level up to which events are
let through, and may be for some events only: for those from targets that begin with a text, in
spans of a name, or with certain fields. Of the directives that are for an event the most particular
one decides. Directives for spans, or for fields with given values, let no event through here,
because there are no spans.

White space around a directive does not end it, but the places of its parts are counted from where
its text begins and are then taken in the text with the white space. So white space makes another
directive of it, or none.
-/

namespace MetricLedger.Log

structure Directive where
  target : Option String := none
  span : Option String := none
  /-- The names of fields; with each, whether a value is asked for. -/
  fields : List (String × Bool) := []
  /-- The rank of the level up to which events are let through. -/
  rank : Nat := Level.rank .trace
deriving DecidableEq, Repr

namespace Directive

/-- A level by its name or its number; zero lets nothing through. -/
def rank? (cs : List Char) : Option Nat :=
  match Text.Integer.natural (UInt64.size - 1) cs with
  | .ok n => if n ≤ 5 then some n else none
  | .error _ =>
    match String.ofList (cs.map Char.toLower) with
    | "" | "error" => some 1
    | "warn" => some 2
    | "info" => some 3
    | "debug" => some 4
    | "trace" => some 5
    | "off" => some 0
    | _ => none

/-- Whether a directive may begin with a character. -/
def mayBegin (c : Char) : Bool := c == '-' || c == ':' || c == '_' || Text.isWordChar c

def byteCount (cs : List Char) : Nat := (Text.Utf8.encode cs).length

/-- The part of a text between two places. -/
def part (text : Bytes) (first last : Nat) : List Char :=
  Text.Utf8.decodeLossy ((text.drop first).take (last - first))

/-- The part of a text from a place on. -/
def partFrom (text : Bytes) (first : Nat) : List Char := Text.Utf8.decodeLossy (text.drop first)

/-- The level at a place; if nothing is there, every level. -/
def withRank (d : Directive) (text : Bytes) (place : Nat) : Option Directive :=
  match partFrom text place with
  | [] => some d
  | cs => (rank? cs).map fun rank => { d with rank }

/-- What follows a closed bracket. -/
def afterSpan (d : Directive) (text : Bytes) (place : Nat) : List Char → Option Directive
  | [] => some d
  | '=' :: _ => d.withRank text (place + 1)
  | _ => none

/-- A field, which may ask for a value. -/
def field? (cs : List Char) : Option (String × Bool) :=
  if cs.isEmpty then none
  else match Text.cut? '=' cs with
    | some (name, _) => some (String.ofList name, true)
    | none => some (String.ofList cs, false)

/-- What follows an opened brace: one field, and the end of the bracket. -/
def afterBrace (d : Directive) (text : Bytes) (place : Nat) (cs : List Char) :
    Option Directive := do
  let (name, rest) ← Text.cut? '\x7d' cs
  let last := place + byteCount name
  let field ← field? (part text place last)
  match rest with
  | ']' :: rest => afterSpan { d with fields := [field] } text (last + 2) rest
  | _ => none

/-- What follows an opened bracket: the name of a span, a field, or both. -/
def afterBracket (d : Directive) (text : Bytes) (place : Nat) (cs : List Char) :
    Option Directive :=
  let name := cs.takeWhile fun c => c != ']' && c != '\x7b'
  let last := place + byteCount name
  let span := String.ofList (part text place last)
  match cs.drop name.length with
  | ']' :: rest => afterSpan { d with span := some span } text (last + 1) rest
  | '\x7b' :: rest =>
    afterBrace { d with span := if name.isEmpty then none else some span } text (last + 1) rest
  | _ => none

/-- A text without brackets and equals sign is a level, or else a target. -/
def ofWord (cs : List Char) : Directive :=
  match rank? cs with
  | some rank => { rank }
  | none => { target := some (String.ofList cs) }

def parse? (cs : List Char) : Option Directive :=
  let text := Text.Utf8.encode cs
  match Text.trim cs with
  | [] => none
  | '[' :: rest => afterBracket {} text 1 rest
  | c :: rest =>
    if mayBegin c then
      let word := c :: rest.takeWhile fun c => c != '=' && c != '['
      let last := byteCount word
      let target := some (String.ofList (part text 0 last))
      match (c :: rest).drop word.length with
      | '=' :: _ => withRank { target } text (last + 1)
      | '[' :: rest => afterBracket { target } text (last + 1) rest
      | _ => some (ofWord cs)
    else none

/-- Whether a directive is for events, whatever span they are in. -/
def isForEvents (d : Directive) : Bool := d.span.isNone && !d.fields.any (·.2)

/-- Whether a directive is for an event. -/
def covers (d : Directive) (e : Event) : Bool :=
  d.isForEvents
    && d.target.all (fun t => (Text.after? t.toList e.target.toList).isSome)
    && d.fields.all fun (name, _) => e.names.contains name

/-- What makes one directive more particular than another: a longer target, then more fields, then
their order as texts. -/
def isBefore (a b : Directive) : Bool :=
  let size (d : Directive) := d.target.elim 0 fun t => Text.byteLength t + 1
  size b < size a || (size a == size b &&
    (b.fields.length < a.fields.length || (a.fields.length == b.fields.length &&
      (b.target.getD "" < a.target.getD "" || (a.target == b.target &&
        b.fields.map Prod.fst < a.fields.map Prod.fst)))))

def isSame (a b : Directive) : Bool :=
  a.target == b.target && a.fields.map Prod.fst == b.fields.map Prod.fst

end Directive

/-- Directives that are for events, the most particular first. -/
structure Filter where
  directives : List Directive
deriving DecidableEq, Repr

namespace Filter

/-- Puts a directive in its place; it replaces one that is for the same events. -/
def insert (d : Directive) : List Directive → List Directive
  | [] => [d]
  | e :: es =>
    if d.isSame e then d :: es else if d.isBefore e then d :: e :: es else e :: insert d es

/-- The filter that lets events through up to a level, wherever they come from. -/
def ofLevel (level : Level) : Filter := ⟨[{ rank := level.rank }]⟩

/-- The filter of a text; an empty list lets only errors through. -/
def parse? (s : String) : Option Filter := do
  let pieces := (Text.split ',' s.toList).filter (!·.isEmpty)
  let directives ← pieces.mapM Directive.parse?
  if directives.isEmpty then some (ofLevel .error)
  else some ⟨(directives.filter (·.isForEvents)).foldl (fun ds d => insert d ds) []⟩

def allows (f : Filter) (e : Event) : Bool :=
  match f.directives.find? (·.covers e) with
  | some d => e.level.rank ≤ d.rank
  | none => false

end Filter

end MetricLedger.Log
