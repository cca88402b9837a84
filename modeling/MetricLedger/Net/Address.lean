import MetricLedger.Text.Digits
import MetricLedger.Text.Hex

/-!
# Network addresses

IP addresses of both families and the socket addresses made of them, with their usual texts. An
IPv6 address is written with its first longest run of zero groups left out; in a socket address it
stands in brackets, where a scope may follow it.
-/

namespace MetricLedger.Net

structure Ipv4 where
  a : UInt8
  b : UInt8
  c : UInt8
  d : UInt8
deriving DecidableEq, Repr

structure Ipv6 where
  groups : List UInt16
  length_eq : groups.length = 8
deriving DecidableEq, Repr

inductive IpAddress
  | v4 (ip : Ipv4)
  | v6 (ip : Ipv6)
deriving DecidableEq, Repr

inductive SocketAddress
  | v4 (ip : Ipv4) (port : UInt16)
  | v6 (ip : Ipv6) (scope : UInt32) (port : UInt16)
deriving DecidableEq, Repr

def SocketAddress.ip : SocketAddress → IpAddress
  | .v4 ip _ => .v4 ip
  | .v6 ip _ _ => .v6 ip

def SocketAddress.port : SocketAddress → UInt16
  | .v4 _ port => port
  | .v6 _ _ port => port

/-! ## Writing -/

def Ipv4.chars (ip : Ipv4) : List Char :=
  let octet (n : UInt8) := Text.Digits.plain n.toNat
  octet ip.a ++ '.' :: octet ip.b ++ '.' :: octet ip.c ++ '.' :: octet ip.d

/-- Groups with colons between them. -/
def groupChars : List UInt16 → List Char
  | [] => []
  | [g] => Text.Hex.plain g.toNat
  | g :: gs => Text.Hex.plain g.toNat ++ ':' :: groupChars gs

/-- The length of the run of zero groups that starts at a place. -/
def zeroRun (groups : List UInt16) (place : Nat) : Nat :=
  ((groups.drop place).takeWhile (· == 0)).length

/-- The first place where the longest run of zero groups starts. -/
def longestZeroRun (groups : List UInt16) : Nat :=
  (List.range groups.length).foldl
    (fun best place => if zeroRun groups best < zeroRun groups place then place else best) 0

/-- The IPv4 address that an IPv6 address of the mapped kind stands for. -/
def Ipv6.mapped? (ip : Ipv6) : Option Ipv4 :=
  match ip.groups with
  | [0, 0, 0, 0, 0, 0xFFFF, x, y] =>
    some ⟨(x.toNat / 256).toUInt8, x.toNat.toUInt8, (y.toNat / 256).toUInt8, y.toNat.toUInt8⟩
  | _ => none

def Ipv6.chars (ip : Ipv6) : List Char :=
  match ip.mapped? with
  | some v4 => "::ffff:".toList ++ v4.chars
  | none =>
    let place := longestZeroRun ip.groups
    let run := zeroRun ip.groups place
    if 1 < run then
      groupChars (ip.groups.take place) ++ ':' :: ':' :: groupChars (ip.groups.drop (place + run))
    else groupChars ip.groups

def IpAddress.chars : IpAddress → List Char
  | .v4 ip => ip.chars
  | .v6 ip => ip.chars

def IpAddress.text (ip : IpAddress) : String := String.ofList ip.chars

def portChars (port : UInt16) : List Char := ':' :: Text.Digits.plain port.toNat

def SocketAddress.chars : SocketAddress → List Char
  | .v4 ip port => ip.chars ++ portChars port
  | .v6 ip scope port =>
    let scopeChars := if scope = 0 then [] else '%' :: Text.Digits.plain scope.toNat
    '[' :: ip.chars ++ scopeChars ++ ']' :: portChars port

def SocketAddress.text (a : SocketAddress) : String := String.ofList a.chars

/-! ## Reading -/

/-- Reads the front of a text. -/
abbrev Scan (α : Type) := List Char → Option (α × List Char)

/-- A run of decimal digits whose number is below `bound`. -/
def scanDecimal (bound : Nat) : Scan Nat := fun cs =>
  let (ds, rest) := Text.Digits.span cs.length cs
  let n := Text.Digits.number 0 ds
  if ds.isEmpty || bound ≤ n then none else some (n, rest)

/-- One part of an IPv4 address: no more digits than needed. -/
def scanOctet : Scan UInt8 := fun cs =>
  let (ds, rest) := Text.Digits.span cs.length cs
  let n := Text.Digits.number 0 ds
  if ds.isEmpty || 3 < ds.length || (1 < ds.length && ds.head? == some '0') || 256 ≤ n then none
  else some (n.toUInt8, rest)

def scanMark (mark : Char) (cs : List Char) : Option (List Char) :=
  match cs with
  | c :: rest => if c = mark then some rest else none
  | [] => none

def scanIpv4 : Scan Ipv4 := fun cs => do
  let (a, cs) ← scanOctet cs
  let (b, cs) ← scanOctet (← scanMark '.' cs)
  let (c, cs) ← scanOctet (← scanMark '.' cs)
  let (d, cs) ← scanOctet (← scanMark '.' cs)
  some (⟨a, b, c, d⟩, cs)

/-- A run of one to four hexadecimal digits. -/
def scanGroup : Scan UInt16 := fun cs =>
  let ds := cs.takeWhile Text.Hex.isDigit
  if ds.isEmpty || 4 < ds.length then none
  else (Text.Hex.number? 0 ds).map fun n => (n.toUInt16, cs.drop ds.length)

def Ipv4.asGroups (ip : Ipv4) : List UInt16 :=
  [(ip.a.toNat * 256 + ip.b.toNat).toUInt16, (ip.c.toNat * 256 + ip.d.toNat).toUInt16]

/-- Groups with colons between them, as many as there are and there is room for. An IPv4 address in
the place of two groups ends them; whether one did is told. -/
def scanGroups : (room : Nat) → (first : Bool) → List Char → List UInt16 × Bool × List Char
  | 0, _, cs => ([], false, cs)
  | room + 1, first, cs =>
    let start := if first then some cs else scanMark ':' cs
    match if 1 ≤ room then start.bind scanIpv4 else none with
    | some (ip, rest) => (ip.asGroups, true, rest)
    | none =>
      match start.bind scanGroup with
      | some (g, rest) =>
        let (gs, ended, rest) := scanGroups room false rest
        (g :: gs, ended, rest)
      | none => ([], false, cs)

def ofGroups? (groups : List UInt16) : Option Ipv6 :=
  if h : groups.length = 8 then some ⟨groups, h⟩ else none

/-- Eight groups, or two rows of groups around a double colon that stands for one zero or more. -/
def scanIpv6 : Scan Ipv6 := fun cs => do
  let (head, ended, rest) := scanGroups 8 true cs
  if head.length = 8 then (ofGroups? head).map fun ip => (ip, rest)
  else if ended then none
  else
    let rest ← scanMark ':' rest
    let rest ← scanMark ':' rest
    let (tail, _, rest) := scanGroups (7 - head.length) true rest
    let zeros := List.replicate (8 - head.length - tail.length) 0
    (ofGroups? (head ++ zeros ++ tail)).map fun ip => (ip, rest)

def scanPort : Scan UInt16 := fun cs => do
  let (n, rest) ← scanDecimal UInt16.size (← scanMark ':' cs)
  some (n.toUInt16, rest)

/-- A scope after a percent sign; anything else is no scope and left where it is. -/
def scanScope (cs : List Char) : UInt32 × List Char :=
  match (scanMark '%' cs).bind (scanDecimal UInt32.size) with
  | some (n, rest) => (n.toUInt32, rest)
  | none => (0, cs)

def scanSocketV4 : Scan SocketAddress := fun cs => do
  let (ip, cs) ← scanIpv4 cs
  let (port, cs) ← scanPort cs
  some (.v4 ip port, cs)

def scanSocketV6 : Scan SocketAddress := fun cs => do
  let (ip, cs) ← scanIpv6 (← scanMark '[' cs)
  let (scope, cs) := scanScope cs
  let (port, cs) ← scanPort (← scanMark ']' cs)
  some (.v6 ip scope port, cs)

/-- What a text holds, if it holds nothing else. -/
def whole? (scan : Scan α) (cs : List Char) : Option α :=
  match scan cs with
  | some (a, []) => some a
  | _ => none

def IpAddress.parse? (cs : List Char) : Option IpAddress :=
  whole? (fun cs => ((scanIpv4 cs).map fun (ip, r) => (.v4 ip, r)).orElse fun _ =>
    (scanIpv6 cs).map fun (ip, r) => (.v6 ip, r)) cs

def SocketAddress.parse? (cs : List Char) : Option SocketAddress :=
  whole? (fun cs => (scanSocketV4 cs).orElse fun _ => scanSocketV6 cs) cs

end MetricLedger.Net
