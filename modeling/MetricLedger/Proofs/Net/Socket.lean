import MetricLedger.Proofs.Net.Address

/-!
# Hosts and ports

The text that is printed for an IP address is one of its texts. A host and a port, put together with
a colon between them, are read as a socket address if and only if the host is an IPv4 address, or an
IPv6 address in brackets with or without a scope: the port begins behind the last colon, so that no
host can take part of the port or bring one of its own.
-/

namespace MetricLedger.Net

open Text.Digits (plain number)

/-! ## Printed addresses -/

theorem group_plain (g : UInt16) : Group g (Text.Hex.plain g.toNat) where
  nonempty := Text.Hex.plain_ne_nil _
  short := Text.Hex.length_plain_le (by decide) g.toNat_lt
  value := Text.Hex.number?_plain _

theorem side_groupChars (gs : List UInt16) : Side false gs (groupChars gs) := by
  fun_induction groupChars gs with
  | case1 => exact .empty
  | case2 g => exact .row (.last (group_plain g))
  | case3 g gs several ih =>
    cases ih with
    | empty => exact absurd rfl several
    | row row => exact .row (.more (group_plain g) row)

/-- A run of zero groups is made of zeros. -/
theorem zeroRun_eq (groups : List UInt16) (place : Nat) : groups =
    groups.take place ++ List.replicate (zeroRun groups place) 0 ++
      groups.drop (place + zeroRun groups place) := by
  generalize run : (groups.drop place).takeWhile (· == 0) = zeros
  obtain ⟨rest, zero, -⟩ := Text.append_of_takeWhile run
  have all : zeros = List.replicate zeros.length 0 :=
    List.eq_replicate_of_mem fun g mem => eq_of_beq (zero g mem)
  rw [zeroRun, run, ← all, ← List.drop_drop, List.append_assoc, ← rest, List.take_append_drop]

theorem word_of_bytes (x : UInt16) :
    ((x.toNat / 256).toUInt8.toNat * 256 + x.toNat.toUInt8.toNat).toUInt16 = x := by
  have small := x.toNat_lt
  have high : (x.toNat / 256).toUInt8.toNat = x.toNat / 256 :=
    UInt8.toNat_ofNat_of_lt' (show x.toNat / 256 < 256 by omega)
  have low : x.toNat.toUInt8.toNat = x.toNat % 256 := UInt8.toNat_ofNat'
  have whole : x.toNat / 256 * 256 + x.toNat % 256 = x.toNat := by omega
  rw [high, low, whole]
  exact UInt16.ofNat_toNat

/-- The IPv4 address that an IPv6 address stands for makes up its last two groups. -/
theorem Ipv6.groups_of_mapped {ip : Ipv6} {v4 : Ipv4} (h : ip.mapped? = some v4) :
    ip.groups = List.replicate 5 0 ++ 0xFFFF :: v4.asGroups := by
  unfold Ipv6.mapped? at h
  split at h
  · rename_i x y groups
    cases h
    rw [groups, Ipv4.asGroups, word_of_bytes, word_of_bytes]
    rfl
  · cases h

/-- What is printed for an IPv6 address is one of its texts. -/
theorem Ipv6.spelledAs_chars (ip : Ipv6) : ip.SpelledAs ip.chars := by
  unfold Ipv6.chars
  cases mapped : ip.mapped? with
  | some v4 =>
    have marks : Group 0xFFFF "ffff".toList := ⟨by decide, by decide, by decide⟩
    have back : Side true (0xFFFF :: v4.asGroups) ("ffff".toList ++ ':' :: v4.chars) :=
      .row (.more marks (.address v4))
    exact .short .empty back (groups_of_mapped mapped)
  | none =>
    have parts := zeroRun_eq ip.groups (longestZeroRun ip.groups)
    dsimp only
    split
    · rename_i several
      obtain ⟨zeros, run⟩ := Nat.exists_eq_add_one.mpr (Nat.lt_of_succ_lt several)
      rw [run] at parts ⊢
      exact .short (side_groupChars _) (side_groupChars _) parts
    · have side := side_groupChars ip.groups
      have eight := ip.length_eq
      generalize groupChars ip.groups = cs at side
      generalize groups : ip.groups = gs at side
      cases side with
      | empty => exact absurd (groups ▸ eight) (by decide)
      | row row => exact .full (groups ▸ row)

/-! ## Scopes and ports -/

theorem scanDecimal_digits {bound : Nat} {ds rest : List Char} (nonempty : ds ≠ [])
    (digits : ∀ c ∈ ds, Text.Digits.isDigit c = true) (small : number 0 ds < bound)
    (stop : ∀ c ∈ rest.head?, Text.Digits.isDigit c = false) :
    scanDecimal bound (ds ++ rest) = some (number 0 ds, rest) := by
  have none : ds.isEmpty = true ↔ ds = [] := List.isEmpty_iff
  rw [scanDecimal, Text.Digits.span_length digits stop]
  grind

theorem digits_of_scanDecimal {bound n : Nat} {cs rest : List Char}
    (h : scanDecimal bound cs = some (n, rest)) : ∃ ds, cs = ds ++ rest ∧ ds ≠ [] ∧
      (∀ c ∈ ds, Text.Digits.isDigit c = true) ∧ number 0 ds = n ∧ n < bound := by
  obtain ⟨parts, digits⟩ := Text.Digits.span_spec cs.length cs
  unfold scanDecimal at h
  generalize Text.Digits.span cs.length cs = spanned at *
  obtain ⟨ds, others⟩ := spanned
  have none : ds.isEmpty = true ↔ ds = [] := List.isEmpty_iff
  grind

/-- A scope behind a percent sign; without it the scope is zero. -/
inductive Scope : UInt32 → List Char → Prop
  | none : Scope 0 []
  | number {ds : List Char} {scope : UInt32} : ds ≠ [] →
      (∀ c ∈ ds, Text.Digits.isDigit c = true) → number 0 ds = scope.toNat → Scope scope ('%' :: ds)

theorem scanScope_scope {scope : UInt32} {cs : List Char} (h : Scope scope cs) (rest : List Char) :
    scanScope (cs ++ ']' :: rest) = (scope, ']' :: rest) := by
  cases h with
  | none => rfl
  | @number ds _ nonempty digits value =>
    have small := value.trans_lt scope.toNat_lt_size
    have read : scanDecimal UInt32.size (ds ++ ']' :: rest) = some (number 0 ds, ']' :: rest) :=
      scanDecimal_digits nonempty digits small (Text.stop_cons rfl _)
    rw [scanScope, List.cons_append, scanMark_cons, Option.bind_some, read, value]
    simp

theorem scope_of_scanScope {scope : UInt32} {cs rest : List Char}
    (h : scanScope cs = (scope, rest)) : ∃ ds, Scope scope ds ∧ cs = ds ++ rest := by
  unfold scanScope at h
  split at h
  · rename_i n after read
    cases h
    obtain ⟨behind, mark, decimal⟩ := Option.bind_eq_some_iff.mp read
    obtain rfl := scanMark_eq_some_iff.mp mark
    obtain ⟨ds, rfl, nonempty, digits, value, small⟩ := digits_of_scanDecimal decimal
    have back : n.toUInt32.toNat = n := UInt32.toNat_ofNat_of_lt' small
    exact ⟨'%' :: ds, .number nonempty digits (value.trans back.symm), rfl⟩
  · cases h
    exact ⟨[], .none, rfl⟩

theorem scanPort_portChars (port : UInt16) : scanPort (portChars port) = some (port, []) := by
  have value := Text.Digits.number_plain port.toNat
  have small := value.trans_lt port.toNat_lt_size
  have read : scanDecimal UInt16.size (plain port.toNat ++ []) = some (_, []) :=
    scanDecimal_digits (Text.Digits.plain_ne_nil _) (Text.Digits.isDigit_plain _) small nofun
  rw [List.append_nil, value] at read
  simp only [scanPort, portChars, scanMark_cons, Option.bind_eq_bind, Option.bind_some, read]
  exact congrArg (fun port => some (port, [])) UInt16.ofNat_toNat

theorem digits_of_scanPort {port : UInt16} {cs : List Char} (h : scanPort cs = some (port, [])) :
    ∃ ds, cs = ':' :: ds ∧ (∀ c ∈ ds, Text.Digits.isDigit c = true) ∧
      number 0 ds = port.toNat := by
  simp only [scanPort, Option.bind_eq_bind, Option.bind_eq_some_iff, scanMark_eq_some_iff,
    Prod.exists, Option.some.injEq, Prod.mk.injEq] at h
  obtain ⟨_, rfl, n, _, decimal, rfl, rfl⟩ := h
  obtain ⟨ds, rfl, -, digits, value, small⟩ := digits_of_scanDecimal decimal
  have back : n.toUInt16.toNat = n := UInt16.toNat_ofNat_of_lt' small
  exact ⟨ds, by rw [List.append_nil], digits, value.trans back.symm⟩

/-! ## Hosts -/

/-- The hosts that make up a socket address together with a port. -/
inductive Hosts (port : UInt16) : List Char → SocketAddress → Prop
  | v4 (ip : Ipv4) : Hosts port ip.chars (.v4 ip port)
  | v6 {ip : Ipv6} {scope : UInt32} {cs ds : List Char} : ip.SpelledAs cs → Scope scope ds →
      Hosts port ('[' :: cs ++ ds ++ [']']) (.v6 ip scope port)

theorem Hosts.port_eq {port : UInt16} {host : List Char} {a : SocketAddress}
    (h : Hosts port host a) : a.port = port := by
  cases h <;> rfl

theorem halts_cons {mark : Char} {cs : List Char} (digit : Text.Hex.isDigit mark = false)
    (dot : mark ≠ '.') (colon : mark ≠ ':') : Halts (mark :: cs) := by
  rintro c ⟨⟩
  exact ⟨digit, dot, fun same => absurd same colon⟩

/-- In brackets, a percent sign or the closing bracket ends an IPv6 address. -/
theorem Scope.halts {scope : UInt32} {ds : List Char} (h : Scope scope ds) (rest : List Char) :
    Halts (ds ++ ']' :: rest) := by
  cases h with
  | none => exact halts_cons (by decide) (by decide) (by decide)
  | number => exact halts_cons (by decide) (by decide) (by decide)

theorem scanSocketV4_v4 (ip : Ipv4) (port : UInt16) :
    scanSocketV4 (ip.chars ++ portChars port) = some (.v4 ip port, []) := by
  have first : scanIpv4 (ip.chars ++ portChars port) = some (ip, portChars port) :=
    scanIpv4_chars ip (Text.stop_cons rfl _)
  simp [scanSocketV4, first, scanPort_portChars]

theorem scanSocketV6_v6 {ip : Ipv6} {scope : UInt32} {cs ds : List Char} (h : ip.SpelledAs cs)
    (behind : Scope scope ds) (port : UInt16) :
    scanSocketV6 ('[' :: (cs ++ (ds ++ ']' :: portChars port))) =
      some (.v6 ip scope port, []) := by
  have first := scanIpv6_spelled h (behind.halts (portChars port))
  have second := scanScope_scope behind (portChars port)
  simp [scanSocketV6, first, second, scanPort_portChars]

theorem Hosts.parse?_eq {port : UInt16} {host : List Char} {a : SocketAddress}
    (h : Hosts port host a) : SocketAddress.parse? (host ++ portChars port) = some a := by
  rw [SocketAddress.parse?, whole?_eq_some_iff]
  cases h with
  | v4 ip =>
    rw [scanSocketV4_v4]
    rfl
  | @v6 ip scope cs ds spelled behind =>
    have none : scanSocketV4 ('[' :: (cs ++ (ds ++ ']' :: portChars port))) = none := by
      have no : scanIpv4 ('[' :: (cs ++ (ds ++ ']' :: portChars port))) = none :=
        scanIpv4_eq_none (Text.stop_cons rfl _)
      rw [scanSocketV4, no]
      rfl
    have read := scanSocketV6_v6 spelled behind port
    simp only [List.cons_append, List.append_assoc, List.nil_append]
    rw [none, read]
    rfl

/-- A socket address is read from a host, a colon and digits. -/
theorem hosts_of_parse? {cs : List Char} {a : SocketAddress}
    (h : SocketAddress.parse? cs = some a) : ∃ host ds, Hosts a.port host a ∧
      cs = host ++ ':' :: ds ∧ (∀ c ∈ ds, Text.Digits.isDigit c = true) ∧
        number 0 ds = a.port.toNat := by
  rw [SocketAddress.parse?, whole?_eq_some_iff] at h
  cases first : scanSocketV4 cs with
  | some found =>
    obtain ⟨v4, rest⟩ := found
    rw [first] at h
    cases h
    simp only [scanSocketV4, Option.bind_eq_bind, Option.bind_eq_some_iff, Prod.exists,
      Option.some.injEq, Prod.mk.injEq] at first
    obtain ⟨ip, after, read, port, _, number, rfl, rfl⟩ := first
    obtain ⟨ds, rfl, digits, value⟩ := digits_of_scanPort number
    exact ⟨_, ds, .v4 ip, chars_of_scanIpv4 read, digits, value⟩
  | none =>
    rw [first] at h
    replace h : scanSocketV6 cs = some (a, []) := h
    simp only [scanSocketV6, Option.bind_eq_bind, Option.bind_eq_some_iff, Prod.exists,
      scanMark_eq_some_iff, Option.some.injEq, Prod.mk.injEq] at h
    obtain ⟨_, rfl, ip, after, read, behind, closed, port, _, number, rfl, rfl⟩ := h
    obtain ⟨ds, rfl, digits, value⟩ := digits_of_scanPort number
    obtain ⟨es, spelled, rfl⟩ := spelled_of_scanIpv6 read
    have scanned : scanScope after = ((scanScope after).1, ']' :: ':' :: ds) :=
      Prod.ext rfl closed
    obtain ⟨fs, scope, rfl⟩ := scope_of_scanScope scanned
    exact ⟨_, ds, .v6 spelled scope, by simp, digits, value⟩

/-- A host and a port make up a socket address in one way at most. -/
theorem parse?_eq_some_iff {host : List Char} {port : UInt16} {a : SocketAddress} :
    SocketAddress.parse? (host ++ portChars port) = some a ↔ Hosts port host a := by
  refine ⟨fun h => ?_, Hosts.parse?_eq⟩
  obtain ⟨front, ds, hosts, parts, digits, value⟩ := hosts_of_parse? h
  have colon : ∀ cs : List Char, (∀ c ∈ cs, Text.Digits.isDigit c = true) → ':' ∉ cs :=
    fun cs all mem => absurd (all ':' mem) (by decide)
  obtain ⟨rfl, rfl⟩ := Text.append_sep_inj parts
    (colon _ (Text.Digits.isDigit_plain _)) (colon _ digits)
  rw [Text.Digits.number_plain] at value
  rwa [UInt16.toNat_inj.mp value]

/-- The printed text of a socket address is its host with its port. -/
theorem hosts_chars (a : SocketAddress) :
    ∃ host, Hosts a.port host a ∧ a.chars = host ++ portChars a.port := by
  cases a with
  | v4 ip port => exact ⟨_, .v4 ip, rfl⟩
  | v6 ip scope port =>
    have behind : Scope scope (if scope = 0 then [] else '%' :: plain scope.toNat) := by
      split
      · rename_i zero
        subst zero
        exact .none
      · exact .number (Text.Digits.plain_ne_nil _) (Text.Digits.isDigit_plain _)
          (Text.Digits.number_plain _)
    exact ⟨_, .v6 ip.spelledAs_chars behind, by simp [SocketAddress.chars, SocketAddress.port]⟩

/-- What is printed for a socket address is read as that address. -/
theorem SocketAddress.parse?_chars (a : SocketAddress) : SocketAddress.parse? a.chars = some a := by
  obtain ⟨host, hosts, chars⟩ := hosts_chars a
  rw [chars]
  exact hosts.parse?_eq

end MetricLedger.Net
