import MetricLedger.Proofs.Json.Printed
import MetricLedger.Proofs.Json.Spelling

/-!
# Where a quoted text ends

A quoted text is never the beginning of another one, so what follows it can be told from it.
-/

namespace MetricLedger.Json

open Text.Utf8 (encode)

theorem encode_injective {cs ds : List Char} (h : encode cs = encode ds) : cs = ds := by
  have same := congrArg Text.Utf8.decode? h
  rw [Text.Utf8.decode?_encode, Text.Utf8.decode?_encode] at same
  exact Option.some.inj same

/-- Of a text that begins with a quoted text, this one and what follows it are known. -/
theorem quote_append_inj {a b : String} {cs ds : List Char} (h : quote a ++ cs = quote b ++ ds) :
    a = b ∧ cs = ds := by
  have read (a : String) (cs : List Char) :
      readText (encode (a.toList.flatMap escape) ++ (ascii '"' :: encode cs)) =
        .ok (a, encode cs) := by
    have spelled := (escapes_spelled a.toList (encode cs)).readText_eq
    rwa [String.ofList_toList] at spelled
  have bytes := congrArg encode h
  rw [Text.Utf8.encode_append, Text.Utf8.encode_append, encode_quote, encode_quote] at bytes
  have same := congrArg readText (List.cons.inj bytes).2
  rw [read, read] at same
  obtain ⟨rfl, rest⟩ := Prod.mk.inj (Except.ok.inj same)
  exact ⟨rfl, encode_injective rest⟩

/-- The text of an object shows its first key, and the text that stands under it. -/
theorem compact_object_inj {key other : String} {v w : Value} {ms ns : List (String × Value)}
    (h : (Value.object ((key, v) :: ms)).compact = (Value.object ((other, w) :: ns)).compact) :
    key = other ∧ v.chars onOneLine 1 ++ (moreMembers onOneLine 1 ms ++ ['\x7d']) =
      w.chars onOneLine 1 ++ (moreMembers onOneLine 1 ns ++ ['\x7d']) := by
  have chars := String.ofList_injective h
  simp only [Value.chars, onOneLine, List.nil_append, List.append_nil, List.cons_append,
    List.append_assoc, Nat.zero_add, List.cons.injEq, true_and] at chars
  obtain ⟨rfl, rest⟩ := quote_append_inj chars
  exact ⟨rfl, (List.cons.inj rest).2⟩

end MetricLedger.Json
