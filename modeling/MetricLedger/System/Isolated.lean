import MetricLedger.Failure.Io
import MetricLedger.Net.Url

/-!
# A machine on no network

What a machine says that is on no network and keeps the low ports to itself: it lets a program
listen on any IPv4 address, on the IPv6 address that means all, and on those that stand for IPv4
addresses, but it reaches nothing, neither hosts nor local sockets.
-/

namespace MetricLedger.System.Isolated

def isLow (port : UInt16) : Bool := port != 0 && port < 1024

def isMulticast (ip : Net.Ipv6) : Bool := ip.groups.head?.any (0xFF00 ≤ ·)

def isLinkLocal (ip : Net.Ipv6) : Bool := ip.groups.head?.any fun g => 0xFE80 ≤ g && g < 0xFEC0

/-- Whether an address is all addresses or stands for one of the other family. -/
def isGeneral (ip : Net.Ipv6) : Bool := ip.groups.all (· == 0) || ip.mapped?.isSome

/-- What is wrong with an address that is good for one interface only. There is one interface, and
no address on it. -/
def scopeFault (scope : UInt32) : Errno :=
  if scope = 0 then .invalidArgument
  else if scope = 1 then .addressNotAvailable
  else .noSuchDevice

/-- Whether a program may listen on an address, `taken` telling that another one does. -/
def listen (taken : Bool) (a : Net.SocketAddress) : Except Errno Unit :=
  let free : Except Errno Unit := if taken then .error .addressInUse else .ok ()
  match a with
  | .v4 _ port => if isLow port then .error .permissionDenied else free
  | .v6 ip scope port =>
    if isMulticast ip then .error .invalidArgument
    else if isLow port then .error .permissionDenied
    else if isGeneral ip then free
    else if isLinkLocal ip then .error (scopeFault scope)
    else .error .addressNotAvailable

/-- The longest path that a local socket can have. -/
def longestPath : Nat := 107

/-- Why a local socket cannot be reached. -/
def reachSocket (path : String) : IoFault :=
  if path.toList.contains '\x00' then .other "paths must not contain interior null bytes"
  else if longestPath < Text.byteLength path then .other "path must be shorter than SUN_LEN"
  else .system .noSuchFile

/-- Whether a host is known without asking the network. -/
def isKnown (host : List Char) : Bool :=
  host == "localhost".toList || (Net.IpAddress.parse? host).isSome || (Net.Url.webIpv4? host).isSome

/-- Why a host cannot be reached. -/
def reachHost (host : String) : IoFault :=
  let isBracket (c : Char) : Bool := c == '[' || c == ']'
  let name := ((host.toList.dropWhile isBracket).reverse.dropWhile isBracket).reverse
  if isKnown name then .system .networkUnreachable
  else .other "failed to lookup address information: Temporary failure in name resolution"

end MetricLedger.System.Isolated
