import MetricLedger.Proofs.Net.Socket
import MetricLedger.Settings.Listener

/-!
# The address of a listener

A listener listens on the IP address that its host is, with its own port. Hosts are IPv4 addresses
and IPv6 addresses in brackets; anything else is refused, an IPv6 address without brackets too.
-/

namespace MetricLedger.Settings.Listener

open Net

theorem toList_bindAddress (l : Listener) :
    l.bindAddress.toList = l.host.toList ++ portChars l.port := String.toList_ofList

theorem socketAddress_hosts {l : Listener} {a : SocketAddress} :
    l.socketAddress = .ok a ↔ Hosts l.port l.host.toList a := by
  rw [← parse?_eq_some_iff, ← toList_bindAddress]
  unfold socketAddress
  cases SocketAddress.parse? l.bindAddress.toList with
  | none => exact ⟨nofun, nofun⟩
  | some b =>
    constructor
    · rintro ⟨⟩
      rfl
    · rintro ⟨⟩
      rfl

theorem socketAddress_refused {l : Listener} :
    l.socketAddress = .error (.config .badAddress) ↔ ¬ ∃ a, Hosts l.port l.host.toList a := by
  simp only [← parse?_eq_some_iff, ← toList_bindAddress]
  unfold socketAddress
  cases SocketAddress.parse? l.bindAddress.toList with
  | none => exact ⟨fun _ => nofun, fun _ => rfl⟩
  | some b => exact ⟨nofun, fun no => absurd ⟨b, rfl⟩ no⟩

/-- A listener has an address if and only if its host is an IPv4 address or an IPv6 address in
brackets, with or without a scope, as they are read when they stand alone; otherwise its settings
are refused. The address has the port of the listener and is read back from its text. -/
theorem socketAddress_eq_ok_iff (l : Listener) :
    (∀ a, l.socketAddress = .ok a ↔ Hosts l.port l.host.toList a) ∧
    (∀ a, l.socketAddress = .ok a →
      a.port = l.port ∧ SocketAddress.parse? a.text.toList = some a) ∧
    (l.socketAddress = .error (.config .badAddress) ↔ ¬ ∃ a, Hosts l.port l.host.toList a) ∧
    ∀ cs ip, IpAddress.parse? cs = some ip ↔ ip.SpelledAs cs := by
  refine ⟨fun a => socketAddress_hosts, fun a found => ?_, socketAddress_refused,
    fun cs ip => IpAddress.parse?_eq_some_iff⟩
  have hosts := socketAddress_hosts.mp found
  rw [SocketAddress.text, String.toList_ofList]
  exact ⟨hosts.port_eq, a.parse?_chars⟩

/-- An IPv6 address that ends in an IPv4 address, with a scope. -/
theorem socketAddress_scoped :
    let l : Listener := { host := "[2001:db8::1.2.3.4%7]", port := 8080 }
    let a : SocketAddress := .v6 ⟨[0x2001, 0xdb8, 0, 0, 0, 0, 0x102, 0x304], rfl⟩ 7 8080
    l.socketAddress = .ok a ∧ a.port = 8080 ∧ SocketAddress.parse? a.text.toList = some a := by
  intro l a
  have parsed : IpAddress.parse? "2001:db8::1.2.3.4".toList =
      some (.v6 ⟨[0x2001, 0xdb8, 0, 0, 0, 0, 0x102, 0x304], rfl⟩) := by decide
  have spelled : Ipv6.SpelledAs ⟨[0x2001, 0xdb8, 0, 0, 0, 0, 0x102, 0x304], rfl⟩
      "2001:db8::1.2.3.4".toList := IpAddress.parse?_eq_some_iff.mp parsed
  have scope : Scope 7 ['%', '7'] :=
    .number (by decide) (Text.Digits.isDigit_fixed 1 7) (by decide)
  have hosts : Hosts l.port l.host.toList a := by
    have text : l.host.toList = '[' :: "2001:db8::1.2.3.4".toList ++ ['%', '7'] ++ [']'] := by
      decide
    rw [text]
    exact .v6 spelled scope
  have found := ((socketAddress_eq_ok_iff l).1 a).mpr hosts
  exact ⟨found, (socketAddress_eq_ok_iff l).2.1 a found⟩

/-! ## Addresses as hosts -/

theorem scanIpv6_bracket (cs : List Char) : scanIpv6 ('[' :: cs) = none := by
  have nothing : scanGroups 8 true ('[' :: cs) = ([], false, '[' :: cs) := by
    apply scanGroups_stop
    rintro s rfl c ⟨⟩
    rfl
  rw [scanIpv6, nothing]
  rfl

/-- An IPv6 address without brackets is no host. -/
theorem not_hosts_of_v6 {ip : Ipv6} {cs : List Char} (h : IpAddress.parse? cs = some (.v6 ip))
    (port : UInt16) : ¬ ∃ a, Hosts port cs a := by
  rintro ⟨a, hosts⟩
  have spelled : ip.SpelledAs cs := IpAddress.parse?_eq_some_iff.mp h
  cases hosts with
  | v4 v4 =>
    have same : IpAddress.parse? v4.chars = some (.v4 v4) := IpAddress.parse?_eq_some_iff.mpr rfl
    rw [h] at same
    cases same
  | v6 =>
    have read := scanIpv6_spelled spelled halts_nil
    rw [List.append_nil, List.cons_append, List.cons_append, scanIpv6_bracket] at read
    cases read

/-- An IP address is the address of a listener that has it as its host, with the port of the
listener, if it is an IPv4 address. An IPv6 address is refused as it stands and taken in
brackets. -/
theorem socketAddress_of_address {host : String} {ip : IpAddress}
    (h : IpAddress.parse? host.toList = some ip) (port : UInt16) :
    let l : Listener := { host, port }
    match ip with
    | .v4 ip => l.socketAddress = .ok (.v4 ip port)
    | .v6 ip => l.socketAddress = .error (.config .badAddress) ∧
        (l.withHost ("[" ++ host ++ "]")).socketAddress = .ok (.v6 ip 0 port) := by
  intro l
  have spelled := IpAddress.parse?_eq_some_iff.mp h
  cases ip with
  | v4 ip =>
    have text : l.host.toList = ip.chars := spelled
    apply socketAddress_hosts.mpr
    rw [text]
    exact .v4 ip
  | v6 ip =>
    refine ⟨socketAddress_refused.mpr (not_hosts_of_v6 h port), socketAddress_hosts.mpr ?_⟩
    have text : (l.withHost ("[" ++ host ++ "]")).host.toList =
        '[' :: host.toList ++ [] ++ [']'] := by
      simp [withHost]
    rw [text]
    exact .v6 spelled .none

/-- The loopback address of IPv6 needs its brackets. -/
theorem socketAddress_of_loopback :
    IpAddress.parse? "::1".toList = some (.v6 ⟨[0, 0, 0, 0, 0, 0, 0, 1], rfl⟩) ∧
    ({ host := "[::1]", port := 8080 } : Listener).socketAddress =
      .ok (.v6 ⟨[0, 0, 0, 0, 0, 0, 0, 1], rfl⟩ 0 8080) := by
  have parsed : IpAddress.parse? "::1".toList = some (.v6 ⟨[0, 0, 0, 0, 0, 0, 0, 1], rfl⟩) := by
    decide
  exact ⟨parsed, (socketAddress_of_address parsed 8080).2⟩

/-- An IPv6 address that is read as one, but is refused as a host. -/
theorem loopback_refused : ¬ ∀ (host : String) (ip : IpAddress) (port : UInt16),
    IpAddress.parse? host.toList = some ip →
      ∃ a, ({ host, port } : Listener).socketAddress = .ok a ∧ a.ip = ip ∧ a.port = port := by
  intro all
  have parsed : IpAddress.parse? "::1".toList = some (.v6 ⟨[0, 0, 0, 0, 0, 0, 0, 1], rfl⟩) := by
    decide
  obtain ⟨a, found, -⟩ := all "::1" _ 8080 parsed
  exact not_hosts_of_v6 parsed 8080 ⟨a, socketAddress_hosts.mp found⟩

end MetricLedger.Settings.Listener
