import MetricLedger.Text.Pieces
import MetricLedger.Text.Utf8

/-!
# Request targets

The target of a request is a path with an optional query, or a whole URL with either in it, or an
authority alone. Nothing is decoded here; what stands behind a number sign is cut off.
-/

namespace MetricLedger.Http

/-- The path is empty where the target is an authority alone. -/
structure Target where
  path : Bytes
  query : Option Bytes
deriving DecidableEq, Repr

namespace Target

inductive Fault
  | empty
  | tooLong
  | badCharacter
  | badAuthority
  | badFormat
  | schemeTooLong
deriving DecidableEq, Repr

def Fault.message : Fault → String
  | .empty => "empty string"
  | .tooLong => "uri too long"
  | .badCharacter => "invalid uri character"
  | .badAuthority => "invalid authority"
  | .badFormat => "invalid format"
  | .schemeTooLong => "scheme too long"

/-- Bytes that may stand in a path as they are. -/
def isPathByte (b : UInt8) : Bool :=
  b == 0x21 || b == 0x22 || (0x24 ≤ b && b ≤ 0x3B) || b == 0x3D || (0x40 ≤ b && b ≤ 0x5F)
    || (0x61 ≤ b && b ≤ 0x7B) || 0x7C ≤ b

/-- Bytes that may stand in a query as they are. -/
def isQueryByte (b : UInt8) : Bool :=
  b == 0x21 || (0x24 ≤ b && b ≤ 0x3B) || b == 0x3D || 0x3F ≤ b

def hasUtf8 (s : Bytes) : Bool := s.all (· < 0x7F) || (Text.Utf8.decode? s).isSome

/-- A path, an optional query and an optional fragment. An empty path means the root. -/
def ofPath (s : Bytes) : Except Fault Target :=
  let shown := s.takeWhile (· != ascii '#')
  let (path, query) := match Text.cut? (ascii '?') shown with
    | some (path, query) => (path, some query)
    | none => (shown, none)
  if path.all isPathByte && (query.getD []).all isQueryByte && hasUtf8 shown then
    .ok ⟨if path.isEmpty then [ascii '/'] else path, query⟩
  else .error .badCharacter

/-- Bytes of an authority; a percent sign is allowed in some places of it. -/
def isAuthorityByte (b : UInt8) : Bool :=
  b == 0x21 || b == 0x24 || (0x26 ≤ b && b ≤ 0x3B) || b == 0x3D || (0x40 ≤ b && b ≤ 0x5B)
    || b == 0x5D || b == 0x5F || (0x61 ≤ b && b ≤ 0x7A) || b == 0x7E

/-- What has been seen of the host and port so far. -/
structure Scan where
  colons : Nat
  opened : Bool
  closed : Bool
  percent : Bool

def Scan.start : Scan := ⟨0, false, false, false⟩

def Scan.step (scan : Scan) (b : UInt8) : Except Fault Scan :=
  if b = ascii ':' then
    if 8 ≤ scan.colons then .error .badAuthority
    else .ok { scan with colons := scan.colons + 1 }
  else if b = ascii '[' then
    if scan.percent || scan.opened then .error .badAuthority else .ok { scan with opened := true }
  else if b = ascii ']' then
    if !scan.opened || scan.closed then .error .badAuthority
    else .ok ⟨0, scan.opened, true, false⟩
  else if b = ascii '@' then .ok { scan with colons := 0, percent := false }
  else if b = ascii '%' then .ok { scan with percent := true }
  else if isAuthorityByte b then .ok scan
  else .error .badCharacter

def isAuthorityEnd (b : UInt8) : Bool := b == ascii '/' || b == ascii '?' || b == ascii '#'

/-- The authority at the front of a text and what follows it. -/
def cutAuthority (s : Bytes) : Except Fault (Bytes × Bytes) := do
  let authority := s.takeWhile fun b => !isAuthorityEnd b
  let scan ← authority.foldlM Scan.step Scan.start
  if scan.opened != scan.closed || 1 < scan.colons || authority.getLast? == some (ascii '@')
      || scan.percent then
    .error .badAuthority
  else .ok (authority, s.drop authority.length)

def isSchemeByte (b : UInt8) : Bool :=
  b == ascii '+' || b == ascii '-' || b == ascii '.' || b == ascii '~'
    || (0x30 ≤ b && b ≤ 0x39) || (0x41 ≤ b && b ≤ 0x5A) || (0x61 ≤ b && b ≤ 0x7A)

/-- What follows the scheme and the two slashes of a URL, if it has them. -/
def afterScheme? (s : Bytes) : Except Fault (Option Bytes) :=
  let scheme := s.takeWhile isSchemeByte
  match Text.after? ("://".toList.map ascii) (s.drop scheme.length) with
  | some rest => if 64 < scheme.length then .error .schemeTooLong else .ok (some rest)
  | none => .ok none

def ofUrl (s : Bytes) : Except Fault Target := do
  match ← afterScheme? s with
  | none =>
    let (_, rest) ← cutAuthority s
    if rest.isEmpty then .ok ⟨[], none⟩ else .error .badFormat
  | some rest =>
    let (authority, rest) ← cutAuthority rest
    if authority.isEmpty then .error .badFormat else ofPath rest

def parse (s : Bytes) : Except Fault Target :=
  if 65534 < s.length then .error .tooLong
  else match s with
    | [] => .error .empty
    | [b] =>
      if b = ascii '/' ∨ b = ascii '*' then .ok ⟨[b], none⟩
      else do
        let (_, rest) ← cutAuthority [b]
        if rest.isEmpty then .ok ⟨[], none⟩ else .error .badCharacter
    | b :: _ => if b = ascii '/' then ofPath s else ofUrl s

end Target

end MetricLedger.Http
