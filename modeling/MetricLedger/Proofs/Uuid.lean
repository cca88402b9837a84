import MetricLedger.Uuid

/-!
# Reading written identifiers

An identifier is read back from the form in which it is written.
-/

namespace MetricLedger.Uuid

open Text.Hex (digit digits)

theorem mem_digits {c : Char} {width n : Nat} (h : c ∈ digits width n) : ∃ k < 16, c = digit k := by
  induction width generalizing n with
  | zero => cases h
  | succ width ih =>
    rcases List.mem_append.mp h with mem | mem
    · exact ih mem
    · exact ⟨n % 16, Nat.mod_lt n (by decide), List.mem_singleton.mp mem⟩

/-- No digit is a hyphen, a brace or the first letter of a name. -/
theorem digit_ne {k : Nat} (h : k < 16) :
    digit k ≠ '-' ∧ digit k ≠ '\x7b' ∧ (digit k).toLower ≠ 'u' := by
  have all : ∀ m : Fin 16, digit m ≠ '-' ∧ digit m ≠ '\x7b' ∧ (digit m).toLower ≠ 'u' := by decide
  exact all ⟨k, h⟩

theorem hyphen_not_mem (width n : Nat) : '-' ∉ digits width n := by
  intro mem
  obtain ⟨k, small, same⟩ := mem_digits mem
  exact (digit_ne small).1 same.symm

theorem split_hyphenate {ds : List Char} (h : '-' ∉ ds) : Text.split '-' (hyphenate ds) =
    [ds.take 8, (ds.drop 8).take 4, (ds.drop 12).take 4, (ds.drop 16).take 4, ds.drop 20] := by
  have front (n : Nat) : '-' ∉ ds.take n := fun mem => h (List.mem_of_mem_take mem)
  have back (n : Nat) : '-' ∉ ds.drop n := fun mem => h (List.mem_of_mem_drop mem)
  have group (n : Nat) : '-' ∉ (ds.drop n).take 4 := fun mem => back n (List.mem_of_mem_take mem)
  rw [hyphenate, Text.split_append (front 8), Text.split_append (group 8),
    Text.split_append (group 12), Text.split_append (group 16), Text.split_of_not_mem (back 20)]

theorem ofHyphenated?_hyphenate {ds : List Char} (h : '-' ∉ ds) (length : ds.length = 32) :
    ofHyphenated? (hyphenate ds) = ofDigits? ds := by
  have lengths : [ds.take 8, (ds.drop 8).take 4, (ds.drop 12).take 4, (ds.drop 16).take 4,
      ds.drop 20].map List.length = groups := by
    simp [length, groups]
  have whole : [ds.take 8, (ds.drop 8).take 4, (ds.drop 12).take 4, (ds.drop 16).take 4,
      ds.drop 20].flatten = ds := by
    have rest (n : Nat) : (ds.drop n).take 4 ++ ds.drop (n + 4) = ds.drop n := by
      rw [← List.drop_drop, List.take_append_drop]
    simp only [List.flatten_cons, List.flatten_nil, List.append_nil]
    rw [rest 16, rest 12, rest 8, List.take_append_drop]
  rw [ofHyphenated?, split_hyphenate h]
  simp only [lengths, if_true, whole]

theorem ofDigits?_digits (u : Uuid) : ofDigits? (digits 32 u.bits.toNat) = some u := by
  have bits : u.bits.toNat % 16 ^ 32 = u.bits.toNat := Nat.mod_eq_of_lt u.bits.isLt
  rw [ofDigits?, if_pos (Text.Hex.length_digits ..), Text.Hex.number?_digits, bits]
  simp

theorem chars_cons (u : Uuid) : ∃ k rest, k < 16 ∧ u.chars = digit k :: rest := by
  have length := Text.Hex.length_digits 32 u.bits.toNat
  obtain ⟨c, rest, front⟩ := List.exists_cons_of_length_eq_add_one length
  obtain ⟨k, small, rfl⟩ := mem_digits (front ▸ List.mem_cons_self .. : c ∈ _)
  rw [chars, front]
  exact ⟨k, _, small, rfl⟩

theorem parse_chars (u : Uuid) : parse u.chars = .ok u := by
  have bare : unwrap? u.chars = none := by
    obtain ⟨k, rest, small, chars⟩ := u.chars_cons
    obtain ⟨-, brace, letter⟩ := digit_ne small
    rw [chars]
    unfold unwrap?
    split
    · rename_i eq
      exact absurd (List.cons.inj eq).1 brace
    · refine if_neg fun name => letter ?_
      exact (List.cons.inj name).1
  have long : ofDigits? u.chars = none := by
    refine if_neg fun length => ?_
    simp [chars, hyphenate] at length
  have hyphenated : ofHyphenated? u.chars = some u := by
    rw [chars, ofHyphenated?_hyphenate (hyphen_not_mem 32 _) (Text.Hex.length_digits ..),
      ofDigits?_digits]
  simp only [parse, bare, long, hyphenated]
  rfl

end MetricLedger.Uuid
