import MetricLedger.Http.Form
import MetricLedger.Net.Address

/-!
# URLs

A URL has a scheme and, behind two slashes, an authority: a user with a password, a host and a port.
A path and a query follow. The parts are kept as they are written; only blanks at the ends and tabs
and line ends anywhere are left out before anything is read. Hosts of web addresses are names or
numbers; in other schemes a host is any text without the marks that end it.
-/

namespace MetricLedger.Net

open scoped MetricLedger.Natural

structure Url where
  user : List Char := []
  password : List Char := []
  /-- The host, an IPv6 address without its brackets. -/
  host : Option (List Char) := none
  port : Option UInt16 := none
  path : List Char := []
  query : List Char := []
deriving DecidableEq, Repr

namespace Url

inductive Fault
  | relative
  | badPort
  | emptyHost
  | badHostCharacter
  | badIpv4
  | badIpv6
  | badName
deriving DecidableEq, Repr

def Fault.message : Fault → String
  | .relative => "relative URL without a base"
  | .badPort => "invalid port number"
  | .emptyHost => "empty host"
  | .badHostCharacter => "invalid domain character"
  | .badIpv4 => "invalid IPv4 address"
  | .badIpv6 => "invalid IPv6 address"
  | .badName => "invalid international domain name"

/-- How the text behind a scheme is read. -/
inductive Kind
  | web
  | file
  | other
deriving DecidableEq, Repr

def Kind.ofScheme (scheme : String) : Kind :=
  if scheme = "file" then .file
  else if ["http", "https", "ws", "wss", "ftp"].contains scheme then .web
  else .other

/-- The text without what is passed over. -/
def visible (s : String) : List Char :=
  let cs := s.toList.dropWhile (·.toNat ≤ 0x20)
  let cs := (cs.reverse.dropWhile (·.toNat ≤ 0x20)).reverse
  cs.filter fun c => c != '\t' && c != '\n' && c != '\r'

def isSchemeChar (c : Char) : Bool := c.isAlphanum || c == '+' || c == '-' || c == '.'

/-- The scheme, in lower case, and what follows its colon. -/
def cutScheme? (cs : List Char) : Option (String × List Char) :=
  let scheme := cs.takeWhile isSchemeChar
  match scheme, cs.drop scheme.length with
  | c :: _, ':' :: rest =>
    if c.isAlpha then some (String.ofList (scheme.map Char.toLower), rest) else none
  | _, _ => none

def isSlash (kind : Kind) (c : Char) : Bool := c == '/' || (kind != .other && c == '\\')

/-- Whether a character ends the authority. -/
def endsAuthority (kind : Kind) (c : Char) : Bool := isSlash kind c || c == '?' || c == '#'

/-- What stands before and after the last at sign. -/
def cutUser? (cs : List Char) : Option (List Char × List Char) :=
  (Text.cut? '@' cs.reverse).map fun (after, before) => (before.reverse, after.reverse)

/-- The part of an authority that is its host; a colon between brackets belongs to it. -/
def hostPart (inBrackets : Bool) : List Char → List Char
  | [] => []
  | c :: cs =>
    if c == ':' && !inBrackets then []
    else c :: hostPart (if c == '[' then true else if c == ']' then false else inBrackets) cs

/-- The address between brackets, in its usual text. -/
def bracketed (cs : List Char) : Except Fault (List Char) :=
  match cs.getLast?, whole? scanIpv6 (cs.drop 1).dropLast with
  | some ']', some ip => .ok ip.chars
  | _, _ => .error .badIpv6

/-- Whether a character can stand in no host. -/
def isForbidden (c : Char) : Bool := "\x00\t\n\r #/:<>?@[\\]^|".toList.contains c

/-- The host of a URL of no particular kind. -/
def plainHost (cs : List Char) : Except Fault (List Char) :=
  if cs.head? = some '[' then bracketed cs
  else if cs.any isForbidden then .error .badHostCharacter
  else .ok cs

/-- A part of an IPv4 address: decimal, octal behind a zero, or hexadecimal behind `0x`. -/
def ipv4Part? (cs : List Char) : Option Nat :=
  let number (radix : Nat) (cs : List Char) : Option Nat :=
    cs.foldlM (fun n c => (Text.Hex.value? c).bind fun d =>
      if d < radix then some (n * radix + d) else none) 0
  match cs with
  | [] => none
  | '0' :: 'x' :: cs | '0' :: 'X' :: cs => number 16 cs
  | '0' :: cs => number 8 cs
  | cs => number 10 cs

/-- The parts of a name, without the last one if it is empty. -/
def nameParts (cs : List Char) : List (List Char) :=
  let parts := Text.split '.' cs
  if parts.getLast? = some [] && parts.length != 1 then parts.dropLast else parts

/-- Whether a name has to be an IPv4 address. -/
def endsInNumber (cs : List Char) : Bool :=
  match (nameParts cs).getLast? with
  | some part => (part != [] && part.all Text.Digits.isDigit) || (ipv4Part? part).isSome
  | none => false

/-- An IPv4 address of up to four parts, the last one filling what the others leave. -/
def webIpv4? (cs : List Char) : Option Ipv4 := do
  let parts := nameParts cs
  if 4 < parts.length then none
  else
    let numbers ← parts.mapM ipv4Part?
    let last ← numbers.getLast?
    let first := numbers.dropLast
    if first.any (255 < ·) || 256 ^ (4 - first.length) ≤ last then none
    else
      let high := first.foldl (fun n d => n * 256 + d) 0
      let n := high * 256 ^ (4 - first.length) + last
      some ⟨(n / 16777216).toUInt8, (n / 65536).toUInt8, (n / 256).toUInt8, n.toUInt8⟩

/-- The host of a web address: decoded, in lower case, an IPv4 address if it looks like one. -/
def webHost (cs : List Char) : Except Fault (List Char) :=
  if cs.head? = some '[' then bracketed cs
  else
    match Text.Utf8.decode? (Http.Form.percentDecode (Text.Utf8.encode cs)) with
    | none => .error .badName
    | some cs =>
      let cs := cs.map Char.toLower
      if cs.isEmpty then .error .emptyHost
      else if cs.any fun c => isForbidden c || c.toNat < 0x20 || c == '%' || c == '\x7f' then
        .error .badName
      else if endsInNumber cs then
        match webIpv4? cs with
        | some ip => .ok ip.chars
        | none => .error .badIpv4
      else .ok cs

/-- The port at the front of a text behind a host; without digits there is none. -/
def portOf (kind : Kind) (cs : List Char) : Except Fault (Option UInt16 × List Char) :=
  let ds := cs.takeWhile Text.Digits.isDigit
  let rest := cs.drop ds.length
  let ended := match rest with
    | [] => true
    | c :: _ => endsAuthority kind c || c == '\\'
  if !ended || 65535 < Text.Digits.number 0 ds then .error .badPort
  else .ok (if ds.isEmpty then none else some (Text.Digits.number 0 ds).toUInt16, rest)

/-- Path and query of what is left; a number sign ends both. -/
def withPath (url : Url) (cs : List Char) : Url :=
  let shown := cs.takeWhile (· != '#')
  match Text.cut? '?' shown with
  | some (path, query) => { url with path, query }
  | none => { url with path := shown }

/-- User and password of an authority, and the rest. -/
def cutUserInfo (kind : Kind) (cs : List Char) : Except Fault (Url × List Char) :=
  let authority := cs.takeWhile fun c => !endsAuthority kind c
  let rest := cs.drop authority.length
  match cutUser? authority with
  | none => .ok ({}, cs)
  | some (before, after) =>
    if before.isEmpty && after.isEmpty && !rest.isEmpty then .error .emptyHost
    else
      let (user, password) := (Text.cut? ':' before).getD (before, [])
      .ok ({ user, password }, after ++ rest)

def ofAuthority (kind : Kind) (cs : List Char) : Except Fault Url := do
  let (url, cs) ← cutUserInfo kind cs
  let part := hostPart false (cs.takeWhile fun c => !endsAuthority kind c)
  let rest := cs.drop part.length
  let host ← if kind = .other then plainHost part else webHost part
  let named := url.user != [] || url.password != []
  match host, rest with
  | [], ':' :: _ => .error .emptyHost
  | [], rest => if named then .error .emptyHost else .ok (url.withPath rest)
  | host, ':' :: rest =>
    let (port, rest) ← portOf kind rest
    .ok ({ url with host := some host, port }.withPath rest)
  | host, rest => .ok ({ url with host := some host }.withPath rest)

/-- A file may have a host, but no user and no port. -/
def ofFile (cs : List Char) : Except Fault Url := do
  match cs with
  | a :: b :: cs =>
    if isSlash .file a && isSlash .file b then
      let part := cs.takeWhile fun c => !endsAuthority .file c
      let host ← if part.isEmpty then .ok [] else webHost part
      let url : Url := { host := if host = [] ∨ host = "localhost".toList then none else some host }
      .ok (url.withPath (cs.drop part.length))
    else .ok (withPath {} (a :: b :: cs))
  | cs => .ok (withPath {} cs)

def parse (s : String) : Except Fault Url :=
  match cutScheme? (visible s) with
  | none => .error .relative
  | some (scheme, rest) =>
    match Kind.ofScheme scheme with
    | .web => ofAuthority .web (rest.dropWhile (isSlash .web))
    | .file => ofFile rest
    | .other =>
      match Text.after? ['/', '/'] rest with
      | some rest => ofAuthority .other rest
      | none => .ok (withPath {} rest)

/-- The parameters of the query in order. -/
def parameters (url : Url) : List (String × String) :=
  Http.Form.parameters (Text.Utf8.encode url.query)

end Url

end MetricLedger.Net
