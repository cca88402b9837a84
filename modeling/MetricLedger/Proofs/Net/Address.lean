import MetricLedger.Net.Address
import MetricLedger.Proofs.Text.Digits
import MetricLedger.Proofs.Text.Pieces

/-!
# The texts of IP addresses

An IPv4 address has a single text. An IPv6 address is written as eight groups, the last two of which
may stand as an IPv4 address, or as two rows of groups around a double colon. The texts are defined
here on their own, and an address is read from a text if and only if it is one of its texts.
-/

namespace MetricLedger.Net

open Text.Digits (plain number)

/-! ## The grammar -/

/-- One group of an IPv6 address: up to four hexadecimal digits. -/
structure Group (g : UInt16) (cs : List Char) : Prop where
  nonempty : cs ≠ []
  short : cs.length ≤ 4
  value : Text.Hex.number? 0 cs = some g.toNat

/-- Groups with colons between them. An IPv4 address may stand for the last two of them; whether one
does is told. -/
inductive Row : (ended : Bool) → List UInt16 → List Char → Prop
  | last {g : UInt16} {cs : List Char} : Group g cs → Row false [g] cs
  | address (ip : Ipv4) : Row true ip.asGroups ip.chars
  | more {ended : Bool} {g : UInt16} {gs : List UInt16} {cs ds : List Char} : Group g cs →
      Row ended gs ds → Row ended (g :: gs) (cs ++ ':' :: ds)

/-- A row on one side of a double colon, where nothing may stand instead. -/
inductive Side : (ended : Bool) → List UInt16 → List Char → Prop
  | empty : Side false [] []
  | row {ended : Bool} {gs : List UInt16} {cs : List Char} : Row ended gs cs → Side ended gs cs

/-- The texts of an IPv6 address. A double colon stands for one zero or more. -/
inductive Ipv6.SpelledAs (ip : Ipv6) : List Char → Prop
  | full {ended : Bool} {cs : List Char} : Row ended ip.groups cs → ip.SpelledAs cs
  | short {ended : Bool} {front back : List UInt16} {zeros : Nat} {cs ds : List Char} :
      Side false front cs → Side ended back ds →
      ip.groups = front ++ List.replicate (zeros + 1) 0 ++ back →
      ip.SpelledAs (cs ++ ':' :: ':' :: ds)

/-- The texts of an IP address. -/
def IpAddress.SpelledAs : IpAddress → List Char → Prop
  | .v4 ip, cs => cs = ip.chars
  | .v6 ip, cs => ip.SpelledAs cs

/-! ## Marks and digits -/

theorem scanMark_eq_some_iff {mark : Char} {cs rest : List Char} :
    scanMark mark cs = some rest ↔ cs = mark :: rest := by
  cases cs with
  | nil => exact ⟨nofun, nofun⟩
  | cons c cs => grind [scanMark]

@[simp] theorem scanMark_cons (mark : Char) (rest : List Char) :
    scanMark mark (mark :: rest) = some rest := scanMark_eq_some_iff.mpr rfl

theorem isHexDigit {c : Char} (h : Text.Digits.isDigit c = true) : Text.Hex.isDigit c = true := by
  grind [Text.Digits.isDigit, Text.Hex.isDigit, Text.Hex.value?]

/-! ## IPv4 addresses -/

theorem scanOctet_plain (n : UInt8) {rest : List Char}
    (stop : ∀ c ∈ rest.head?, Text.Digits.isDigit c = false) :
    scanOctet (plain n.toNat ++ rest) = some (n, rest) := by
  have small := n.toNat_lt
  have value := Text.Digits.number_plain n.toNat
  have nonempty := Text.Digits.plain_ne_nil n.toNat
  have spanned := Text.Digits.span_length (Text.Digits.isDigit_plain n.toNat) stop
  have short : (plain n.toNat).length ≤ 3 := by
    rcases Nat.eq_zero_or_pos n.toNat with zero | pos
    · rw [zero, plain]
      decide
    · exact Text.Digits.length_plain_le pos (by omega)
  have leading := Text.Digits.plain_leading n.toNat
  have back : n.toNat.toUInt8 = n := UInt8.ofNat_toNat
  rw [scanOctet, spanned]
  grind

theorem octet_of_scanOctet {n : UInt8} {cs rest : List Char} (h : scanOctet cs = some (n, rest)) :
    cs = plain n.toNat ++ rest := by
  obtain ⟨parts, digits⟩ := Text.Digits.span_spec cs.length cs
  unfold scanOctet at h
  generalize Text.Digits.span cs.length cs = spanned at *
  obtain ⟨ds, others⟩ := spanned
  have back : ∀ m < 256, m.toUInt8.toNat = m := fun _ small => UInt8.toNat_ofNat_of_lt' small
  have none : ds.isEmpty = true ↔ ds = [] := List.isEmpty_iff
  have written := @Text.Digits.plain_number ds
  have single : 0 < ds.length ↔ ds ≠ [] := List.length_pos_iff
  grind

theorem scanIpv4_chars (ip : Ipv4) {rest : List Char}
    (stop : ∀ c ∈ rest.head?, Text.Digits.isDigit c = false) :
    scanIpv4 (ip.chars ++ rest) = some (ip, rest) := by
  have dot := Text.stop_cons (show Text.Digits.isDigit '.' = false from rfl)
  simp [scanIpv4, Ipv4.chars, scanOctet_plain _ stop, scanOctet_plain _ (dot _)]

theorem chars_of_scanIpv4 {ip : Ipv4} {cs rest : List Char} (h : scanIpv4 cs = some (ip, rest)) :
    cs = ip.chars ++ rest := by
  simp only [scanIpv4, Option.bind_eq_bind, Option.bind_eq_some_iff, Prod.exists,
    scanMark_eq_some_iff, Option.some.injEq, Prod.mk.injEq] at h
  obtain ⟨a, u, first, _, rfl, b, v, second, _, rfl, c, w, third, _, rfl, d, x, fourth, rfl,
    rfl⟩ := h
  rw [octet_of_scanOctet first, octet_of_scanOctet second, octet_of_scanOctet third,
    octet_of_scanOctet fourth]
  simp [Ipv4.chars]

/-- An IPv4 address starts with digits that a dot ends. -/
theorem octet_front {ip : Ipv4} {cs rest : List Char} (h : scanIpv4 cs = some (ip, rest)) :
    ∃ octet others, cs = octet ++ '.' :: others ∧ octet ≠ [] ∧
      ∀ c ∈ octet, Text.Hex.isDigit c = true := by
  have parts := chars_of_scanIpv4 h
  simp only [Ipv4.chars, List.append_assoc, List.cons_append] at parts
  exact ⟨_, _, parts, Text.Digits.plain_ne_nil _, fun c mem =>
    isHexDigit (Text.Digits.isDigit_plain _ c mem)⟩

theorem scanIpv4_eq_none {cs : List Char} (stop : ∀ c ∈ cs.head?, Text.Hex.isDigit c = false) :
    scanIpv4 cs = none := by
  by_contra found
  obtain ⟨⟨ip, rest⟩, read⟩ := Option.ne_none_iff_exists'.mp found
  obtain ⟨octet, others, rfl, nonempty, digits⟩ := octet_front read
  obtain ⟨c, octet, rfl⟩ := List.exists_cons_of_ne_nil nonempty
  have digit := digits c (List.mem_cons_self ..)
  rw [stop c rfl] at digit
  cases digit

/-! ## Groups -/

theorem Group.digits {g : UInt16} {cs : List Char} (h : Group g cs) :
    ∀ c ∈ cs, Text.Hex.isDigit c = true := Text.Hex.isDigit_of_number? h.value

theorem scanGroup_group {g : UInt16} {cs rest : List Char} (h : Group g cs)
    (stop : ∀ c ∈ rest.head?, Text.Hex.isDigit c = false) :
    scanGroup (cs ++ rest) = some (g, rest) := by
  have taken := Text.takeWhile_append_stop h.digits stop
  have back : g.toNat.toUInt16 = g := UInt16.ofNat_toNat
  have none : cs.isEmpty = true ↔ cs = [] := List.isEmpty_iff
  obtain ⟨nonempty, short, value⟩ := h
  rw [scanGroup, taken, value]
  grind

theorem group_of_scanGroup {g : UInt16} {cs rest : List Char} (h : scanGroup cs = some (g, rest)) :
    ∃ ds, Group g ds ∧ cs = ds ++ rest := by
  generalize front : cs.takeWhile Text.Hex.isDigit = ds
  obtain ⟨whole, digits, -⟩ := Text.append_of_takeWhile front
  unfold scanGroup at h
  rw [front] at h
  simp only at h
  split at h
  · cases h
  · rename_i fine
    simp only [Bool.or_eq_true, List.isEmpty_iff, decide_eq_true_eq, not_or, not_lt] at fine
    obtain ⟨n, value, same⟩ := Option.map_eq_some_iff.mp h
    cases same
    have small : n < 16 ^ 4 :=
      Nat.lt_of_lt_of_le (Text.Hex.number?_lt value) (by
        rw [Nat.zero_add, Nat.one_mul]
        exact Nat.pow_le_pow_right (by decide) fine.2)
    have back : n.toUInt16.toNat = n := UInt16.toNat_ofNat_of_lt' small
    exact ⟨ds, ⟨fine.1, fine.2, by rw [back]; exact value⟩, whole⟩

/-- A group is no IPv4 address, unless a dot follows. -/
theorem Group.scanIpv4_eq_none {g : UInt16} {cs rest : List Char} (h : Group g cs)
    (stop : ∀ c ∈ rest.head?, Text.Hex.isDigit c = false ∧ c ≠ '.') :
    scanIpv4 (cs ++ rest) = none := by
  by_contra found
  obtain ⟨⟨ip, after⟩, read⟩ := Option.ne_none_iff_exists'.mp found
  obtain ⟨octet, others, parts, -, digits⟩ := octet_front read
  have group := Text.takeWhile_append_stop h.digits fun c first => (stop c first).1
  have dot := Text.stop_cons (show Text.Hex.isDigit '.' = false from rfl) others
  have same := Text.takeWhile_append_stop digits dot
  rw [← parts, group] at same
  subst same
  have behind := List.append_cancel_left parts
  exact (stop '.' (by rw [behind]; rfl)).2 rfl

/-! ## Rows of groups -/

/-- A text behind the colon that a group needs unless it is the first one. -/
def lead (first : Bool) (cs : List Char) : List Char := if first then cs else ':' :: cs

theorem start_eq_some_iff {first : Bool} {cs s : List Char} :
    (if first then some cs else scanMark ':' cs) = some s ↔ cs = lead first s := by
  cases first with
  | true => exact Option.some_inj
  | false => exact scanMark_eq_some_iff

theorem scanGroups_succ (room : Nat) (first : Bool) (cs : List Char) :
    scanGroups (room + 1) first (lead first cs) =
      match if 1 ≤ room then scanIpv4 cs else none with
      | some (ip, rest) => (ip.asGroups, true, rest)
      | none =>
        match scanGroup cs with
        | some (g, rest) =>
          let (gs, ended, rest) := scanGroups room false rest
          (g :: gs, ended, rest)
        | none => ([], false, lead first cs) := by
  have start : (if first then some (lead first cs) else scanMark ':' (lead first cs)) = some cs :=
    start_eq_some_iff.mpr rfl
  rw [scanGroups, start]
  rfl

/-- What ends a row of groups: neither a digit nor a dot, and a colon only before another one. -/
def Halts (rest : List Char) : Prop :=
  ∀ c ∈ rest.head?, Text.Hex.isDigit c = false ∧ c ≠ '.' ∧ (c = ':' → rest.tail.head? = some ':')

theorem scanGroup_eq_none {cs : List Char} (stop : ∀ c ∈ cs.head?, Text.Hex.isDigit c = false) :
    scanGroup cs = none := by
  have nothing := @Text.takeWhile_append_stop _ Text.Hex.isDigit [] cs nofun stop
  rw [scanGroup, ← List.nil_append cs, nothing]
  rfl

/-- Where no digit comes, there are no groups. -/
theorem scanGroups_stop (room : Nat) (first : Bool) {cs : List Char}
    (stop : ∀ s, cs = lead first s → ∀ c ∈ s.head?, Text.Hex.isDigit c = false) :
    scanGroups room first cs = ([], false, cs) := by
  cases room with
  | zero => rfl
  | succ room =>
    cases start : (if first then some cs else scanMark ':' cs) with
    | none =>
      rw [scanGroups, start]
      simp
    | some s =>
      obtain rfl := start_eq_some_iff.mp start
      have digit := stop s rfl
      rw [scanGroups_succ, scanIpv4_eq_none digit, scanGroup_eq_none digit, ite_self]

theorem Halts.scanGroups_eq {rest : List Char} (h : Halts rest) (room : Nat) :
    scanGroups room false rest = ([], false, rest) := by
  refine scanGroups_stop room false ?_
  rintro s rfl c front
  obtain rfl : ':' = c := Option.some.inj (((h ':' rfl).2.2 rfl).symm.trans front)
  rfl

/-- The groups of a row are all read, and nothing behind them. -/
theorem scanGroups_row {ended : Bool} {gs : List UInt16} {cs rest : List Char}
    (h : Row ended gs cs) (halts : Halts rest) {room : Nat} (fits : gs.length ≤ room)
    (first : Bool) : scanGroups room first (lead first (cs ++ rest)) = (gs, ended, rest) := by
  induction h generalizing room first with
  | last group =>
    obtain ⟨room, rfl⟩ := Nat.exists_eq_add_one.mpr fits
    have none := group.scanIpv4_eq_none fun c front => ⟨(halts c front).1, (halts c front).2.1⟩
    have read := scanGroup_group group fun c front => (halts c front).1
    simp only [scanGroups_succ, none, ite_self, read, halts.scanGroups_eq]
  | address ip =>
    obtain ⟨room, rfl⟩ := Nat.exists_eq_add_one.mpr (Nat.lt_of_lt_of_le (Nat.succ_pos 1) fits)
    have wide : 1 ≤ room := Nat.le_of_succ_le_succ fits
    have read : scanIpv4 (ip.chars ++ rest) = some (ip, rest) :=
      scanIpv4_chars ip fun c front => by grind [isHexDigit, halts c front]
    simp only [scanGroups_succ, if_pos wide, read]
  | @more ended g gs cs ds group _ ih =>
    -- The group is not taken for an IPv4 address, since a colon follows it and no dot.
    obtain ⟨room, rfl⟩ := Nat.exists_eq_add_one.mpr (Nat.lt_of_lt_of_le (Nat.succ_pos _) fits)
    have colon : ∀ c ∈ (':' :: (ds ++ rest)).head?, Text.Hex.isDigit c = false ∧ c ≠ '.' := by
      rintro c ⟨⟩
      decide
    have none := group.scanIpv4_eq_none colon
    have read := scanGroup_group group fun c front => (colon c front).1
    have others := ih (Nat.le_of_succ_le_succ fits) false
    simp only [lead, Bool.false_eq_true, if_false] at others
    simp only [List.append_assoc, List.cons_append, scanGroups_succ, none, ite_self, read, others]

/-- What has been read as groups is a row, or nothing has been read. -/
theorem row_of_scanGroups {room : Nat} {first ended : Bool} {cs rest : List Char}
    {gs : List UInt16} (h : scanGroups room first cs = (gs, ended, rest)) : gs.length ≤ room ∧
      ((gs = [] ∧ ended = false ∧ cs = rest) ∨
        ∃ ds, Row ended gs ds ∧ cs = lead first (ds ++ rest)) := by
  induction room generalizing first ended cs rest gs with
  | zero =>
    cases h
    exact ⟨Nat.le_refl _, .inl ⟨rfl, rfl, rfl⟩⟩
  | succ room ih =>
    by_cases start : ∃ s, cs = lead first s
    · obtain ⟨s, rfl⟩ := start
      rw [scanGroups_succ] at h
      split at h
      · rename_i ip after found
        cases h
        have wide : 1 ≤ room := by
          by_contra narrow
          rw [if_neg narrow] at found
          cases found
        rw [if_pos wide] at found
        rw [chars_of_scanIpv4 found]
        exact ⟨Nat.succ_le_succ wide, .inr ⟨_, .address ip, rfl⟩⟩
      · split at h
        · rename_i g after found
          obtain ⟨ds, group, rfl⟩ := group_of_scanGroup found
          generalize others : scanGroups room false after = result at h
          obtain ⟨hs, e, r⟩ := result
          cases h
          obtain ⟨fits, ⟨rfl, rfl, rfl⟩ | ⟨es, row, rfl⟩⟩ := ih others
          · exact ⟨Nat.succ_le_succ fits, .inr ⟨ds, .last group, rfl⟩⟩
          · refine ⟨Nat.succ_le_succ fits, .inr ⟨_, .more group row, ?_⟩⟩
            simp [lead]
        · cases h
          exact ⟨Nat.zero_le _, .inl ⟨rfl, rfl, rfl⟩⟩
    · rw [scanGroups_stop _ _ fun s front => absurd ⟨s, front⟩ start] at h
      cases h
      exact ⟨Nat.zero_le _, .inl ⟨rfl, rfl, rfl⟩⟩

theorem scanGroups_side {ended : Bool} {gs : List UInt16} {cs rest : List Char}
    (h : Side ended gs cs) (halts : Halts rest) {room : Nat} (fits : gs.length ≤ room) :
    scanGroups room true (cs ++ rest) = (gs, ended, rest) := by
  cases h with
  | empty =>
    refine scanGroups_stop room true ?_
    rintro s rfl c front
    exact (halts c front).1
  | row row => exact scanGroups_row row halts fits true

theorem side_of_scanGroups {room : Nat} {ended : Bool} {cs rest : List Char} {gs : List UInt16}
    (h : scanGroups room true cs = (gs, ended, rest)) :
    gs.length ≤ room ∧ ∃ ds, Side ended gs ds ∧ cs = ds ++ rest := by
  obtain ⟨fits, ⟨rfl, rfl, rfl⟩ | ⟨ds, row, front⟩⟩ := row_of_scanGroups h
  · exact ⟨fits, [], .empty, rfl⟩
  · exact ⟨fits, ds, .row row, front⟩

/-! ## IPv6 addresses -/

theorem ofGroups?_eq_some_iff {groups : List UInt16} {ip : Ipv6} :
    ofGroups? groups = some ip ↔ groups = ip.groups := by
  unfold ofGroups?
  constructor
  · intro h
    split at h
    · cases h
      rfl
    · cases h
  · rintro rfl
    rw [dif_pos ip.length_eq]

theorem halts_colons (cs : List Char) : Halts (':' :: ':' :: cs) := by
  rintro c ⟨⟩
  exact ⟨by decide, by decide, fun _ => rfl⟩

theorem scanIpv6_spelled {ip : Ipv6} {cs rest : List Char} (h : ip.SpelledAs cs)
    (halts : Halts rest) : scanIpv6 (cs ++ rest) = some (ip, rest) := by
  have eight := ip.length_eq
  have built : ofGroups? ip.groups = some ip := ofGroups?_eq_some_iff.mpr rfl
  cases h with
  | full row =>
    have read := scanGroups_row row halts (Nat.le_of_eq eight) true
    simp only [lead, if_true] at read
    rw [scanIpv6, read]
    simp only [eight, if_true, built]
    rfl
  | @short ended front back zeros cs ds before after groups =>
    have total : front.length + (zeros + 1) + back.length = 8 := by
      rw [← eight, groups, List.length_append, List.length_append, List.length_replicate]
    have first : scanGroups 8 true (cs ++ ':' :: ':' :: (ds ++ rest)) =
        (front, false, ':' :: ':' :: (ds ++ rest)) :=
      scanGroups_side before (halts_colons _) (by omega)
    have second : scanGroups (7 - front.length) true (ds ++ rest) = (back, ended, rest) :=
      scanGroups_side after halts (by omega)
    have filled : 8 - front.length - back.length = zeros + 1 := by omega
    have narrow : front.length ≠ 8 := by omega
    have text : cs ++ ':' :: ':' :: ds ++ rest = cs ++ ':' :: ':' :: (ds ++ rest) := by simp
    rw [groups] at built
    rw [scanIpv6, text, first]
    simpa [narrow, second, filled] using built

theorem spelled_of_scanIpv6 {ip : Ipv6} {cs rest : List Char}
    (h : scanIpv6 cs = some (ip, rest)) : ∃ ds, ip.SpelledAs ds ∧ cs = ds ++ rest := by
  unfold scanIpv6 at h
  generalize head : scanGroups 8 true cs = result at h
  obtain ⟨front, ended, after⟩ := result
  obtain ⟨fits, ds, before, rfl⟩ := side_of_scanGroups head
  simp only at h
  split at h
  · rename_i eight
    obtain ⟨_, built, same⟩ := Option.map_eq_some_iff.mp h
    cases same
    have groups := ofGroups?_eq_some_iff.mp built
    cases before with
    | empty => cases eight
    | row row => exact ⟨ds, .full (groups ▸ row), rfl⟩
  · rename_i narrow
    split at h
    · cases h
    · rename_i unended
      obtain rfl : ended = false := by simpa using unended
      simp only [Option.bind_eq_bind, Option.bind_eq_some_iff, scanMark_eq_some_iff] at h
      obtain ⟨_, rfl, behind, rfl, h⟩ := h
      generalize tail : scanGroups (7 - front.length) true behind = result at h
      obtain ⟨back, e, others⟩ := result
      obtain ⟨room, es, side, rfl⟩ := side_of_scanGroups tail
      obtain ⟨_, built, same⟩ := Option.map_eq_some_iff.mp h
      cases same
      have zeros : 8 - front.length - back.length = 7 - front.length - back.length + 1 := by omega
      have groups := ofGroups?_eq_some_iff.mp built
      simp only [zeros] at groups
      exact ⟨_, .short before side groups.symm, by simp⟩

/-- A row is no IPv4 address, unless one stands for all of it. -/
theorem Row.scanIpv4_eq_none {ended : Bool} {gs : List UInt16} {cs rest : List Char}
    (h : Row ended gs cs) (several : ended = false ∨ 2 < gs.length) (halts : Halts rest) :
    scanIpv4 (cs ++ rest) = none := by
  cases h with
  | last group =>
    exact group.scanIpv4_eq_none fun c front => ⟨(halts c front).1, (halts c front).2.1⟩
  | address ip => exact absurd several (by simp [Ipv4.asGroups])
  | more group row =>
    rw [List.append_assoc]
    apply group.scanIpv4_eq_none
    rintro c ⟨⟩
    decide

theorem halts_nil : Halts [] := nofun

theorem Ipv6.SpelledAs.scanIpv4_eq_none {ip : Ipv6} {cs : List Char} (h : ip.SpelledAs cs) :
    scanIpv4 cs = none := by
  cases h with
  | full row =>
    have none := row.scanIpv4_eq_none (.inr (by rw [ip.length_eq]; decide)) halts_nil
    rwa [List.append_nil] at none
  | short before after groups =>
    cases before with
    | empty => exact Net.scanIpv4_eq_none (Text.stop_cons rfl _)
    | row row => exact row.scanIpv4_eq_none (.inl rfl) (halts_colons _)

/-! ## Whole texts -/

theorem whole?_eq_some_iff {scan : Scan α} {cs : List Char} {a : α} :
    whole? scan cs = some a ↔ scan cs = some (a, []) := by
  unfold whole?
  split <;> grind

/-- An IP address is read from its texts and from no others. -/
theorem IpAddress.parse?_eq_some_iff {ip : IpAddress} {cs : List Char} :
    IpAddress.parse? cs = some ip ↔ ip.SpelledAs cs := by
  rw [IpAddress.parse?, whole?_eq_some_iff]
  constructor
  · intro h
    cases first : scanIpv4 cs with
    | some found =>
      obtain ⟨v4, rest⟩ := found
      rw [first] at h
      cases h
      have chars := chars_of_scanIpv4 first
      rwa [List.append_nil] at chars
    | none =>
      rw [first] at h
      obtain ⟨⟨v6, rest⟩, read, same⟩ := Option.map_eq_some_iff.mp h
      cases same
      obtain ⟨ds, spelled, rfl⟩ := spelled_of_scanIpv6 read
      rwa [List.append_nil]
  · intro h
    cases ip with
    | v4 ip =>
      have read : scanIpv4 (ip.chars ++ []) = some (ip, []) := scanIpv4_chars ip nofun
      rw [List.append_nil] at read
      rw [show cs = ip.chars from h, read]
      rfl
    | v6 ip =>
      replace h : ip.SpelledAs cs := h
      have read := scanIpv6_spelled h halts_nil
      rw [List.append_nil] at read
      rw [h.scanIpv4_eq_none, read]
      rfl

end MetricLedger.Net
