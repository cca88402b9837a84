import MetricLedger.Json.Value
import MetricLedger.Proofs.Json.NumberText

/-!
# The text of values

What is written for a value is a form of it, on one line as well as over several lines.
-/

namespace MetricLedger.Json

open Text.Utf8 (encode)

/-! ## Texts -/

theorem hexDigit_ascii {n : Nat} (h : n < 16) :
    Text.Utf8.encodeChar (Text.Hex.digit n) = [ascii (Text.Hex.digit n)] ∧
      Text.Hex.byteValue? (ascii (Text.Hex.digit n)) = some n := by
  have all : ∀ m : Fin 16, Text.Utf8.encodeChar (Text.Hex.digit m) = [ascii (Text.Hex.digit m)] ∧
      Text.Hex.byteValue? (ascii (Text.Hex.digit m)) = some m.val := by decide
  exact all ⟨n, h⟩

theorem quad_digits {n : Nat} (h : n < 16 ^ 4) (t : Bytes) :
    Quad n (encode ('\\' :: 'u' :: Text.Hex.digits 4 n) ++ t) t := by
  have a := hexDigit_ascii (Nat.mod_lt (n / 16 / 16 / 16) (by decide : 16 > 0))
  have b := hexDigit_ascii (Nat.mod_lt (n / 16 / 16) (by decide : 16 > 0))
  have c := hexDigit_ascii (Nat.mod_lt (n / 16) (by decide : 16 > 0))
  have d := hexDigit_ascii (Nat.mod_lt n (by decide : 16 > 0))
  have bytes : encode ('\\' :: 'u' :: Text.Hex.digits 4 n) ++ t =
      ascii '\\' :: ascii 'u' :: ascii (Text.Hex.digit (n / 16 / 16 / 16 % 16)) ::
        ascii (Text.Hex.digit (n / 16 / 16 % 16)) :: ascii (Text.Hex.digit (n / 16 % 16)) ::
        ascii (Text.Hex.digit (n % 16)) :: t := by
    simp only [Text.Hex.digits, List.nil_append, List.cons_append, Text.Utf8.encode_cons, a.1, b.1,
      c.1, d.1, Text.Utf8.encode_nil]
    rfl
  have code : n / 16 / 16 / 16 % 16 * 16 ^ 3 + n / 16 / 16 % 16 * 16 ^ 2 + n / 16 % 16 * 16 +
      n % 16 = n := by omega
  have quad := Quad.mk (t := t) a.2 b.2 c.2 d.2
  rwa [code, ← bytes] at quad

theorem escape_spelled (c : Char) {cs : List Char} {s t : Bytes} (h : Spelled cs s t) :
    Spelled (c :: cs) (encode (escape c) ++ s) t := by
  unfold escape
  split
  · exact @Spelled.short '"' _ _ _ _ (by decide) h
  · exact @Spelled.short '\\' _ _ _ _ (by decide) h
  · exact @Spelled.short 'b' _ _ _ _ (by decide) h
  · exact @Spelled.short 'f' _ _ _ _ (by decide) h
  · exact @Spelled.short 'n' _ _ _ _ (by decide) h
  · exact @Spelled.short 'r' _ _ _ _ (by decide) h
  · exact @Spelled.short 't' _ _ _ _ (by decide) h
  · rename_i quote backslash _ _ _ _ _
    split
    · exact .code (quad_digits (by omega) s) h
    · have plain := Spelled.plain (by omega) quote backslash h
      rwa [← List.append_nil (Text.Utf8.encodeChar c)] at plain

theorem escapes_spelled (cs : List Char) (t : Bytes) :
    Spelled cs (encode (cs.flatMap escape) ++ (ascii '"' :: t)) t := by
  induction cs with
  | nil => exact .done
  | cons c cs ih =>
    rw [List.flatMap_cons, Text.Utf8.encode_append, List.append_assoc]
    exact escape_spelled c ih

theorem encode_quote (s : String) (t : Bytes) : encode (quote s) ++ t =
    ascii '"' :: (encode (s.toList.flatMap escape) ++ (ascii '"' :: t)) := by
  rw [quote, Text.Utf8.encode_append, List.append_assoc]
  rfl

/-! ## White space -/

/-- Characters that may stand between the parts of a value. -/
def Blank (cs : List Char) : Prop := ∀ c ∈ cs, c.toNat < 0x80 ∧ isSpace (ascii c) = true

theorem Blank.gap {cs : List Char} (h : Blank cs) (t : Bytes) : Gap (encode cs ++ t) t := by
  induction cs with
  | nil => exact .none
  | cons c cs ih =>
    obtain ⟨small, space⟩ := h c (List.mem_cons_self ..)
    rw [Text.Utf8.encode_cons, Text.Utf8.encodeChar_ascii small]
    exact .some space (ih fun d mem => h d (List.mem_cons_of_mem _ mem))

/-- A layout that sets parts apart by white space only. -/
structure Layout.Spaced (layout : Layout) : Prop where
  beforeItem : ∀ level, Blank (layout.beforeItem level)
  beforeEnd : ∀ level, Blank (layout.beforeEnd level)
  afterColon : Blank layout.afterColon

theorem blank_nil : Blank [] := by
  intro c mem
  cases mem

theorem spaced_onOneLine : onOneLine.Spaced := ⟨fun _ => blank_nil, fun _ => blank_nil, blank_nil⟩

theorem blank_newline (level : Nat) : Blank (newline level) := by
  intro c mem
  rcases List.mem_cons.mp mem with rfl | mem
  · decide
  · rw [(List.mem_replicate.mp mem).2]
    decide

theorem spaced_overLines : overLines.Spaced := by
  refine ⟨blank_newline, blank_newline, ?_⟩
  intro c mem
  rw [List.mem_singleton.mp mem]
  decide

/-! ## Values -/

mutual

/-- A value with its numbers as they are written. -/
def Value.tree : Value → Tree
  | .null => .null
  | .flag b => .flag b
  | .natural n => .number (encode (Text.Digits.plain n))
  | .number x => if x.isFinite then .number (Bytes.ofString (finiteText x)) else .null
  | .text s => .text s
  | .list items => .list (itemTrees items)
  | .object members => .object (memberTrees members)

def itemTrees : List Value → List Tree
  | [] => []
  | v :: items => v.tree :: itemTrees items

def memberTrees : List (String × Value) → List (String × Tree)
  | [] => []
  | (key, v) :: members => (key, v.tree) :: memberTrees members

end

theorem written_number (x : Double) (t : Bytes) :
    Written (Value.number x).tree (Bytes.ofString (numberText x) ++ t) t := by
  rw [Value.tree, numberText]
  split
  · exact .number (finiteText_literal x)
  · exact .null

theorem written_text (s : String) (t : Bytes) : Written (.text s) (encode (quote s) ++ t) t := by
  have written := Written.text (escapes_spelled s.toList t)
  rwa [String.ofList_toList, ← encode_quote] at written

theorem member_quote {value : Tree → Bytes → Bytes → Prop} {v : Tree} {s t : Bytes} (key : String)
    {space : List Char} (blank : Blank space) (h : value v s t) :
    Member value (key, v) (encode (quote key) ++ (ascii ':' :: (encode space ++ s))) t := by
  rw [encode_quote]
  have member := Member.mk (escapes_spelled key.toList _) .none (blank.gap s) h
  rwa [String.ofList_toList] at member

section
variable {layout : Layout} (spaced : layout.Spaced)
include spaced

mutual

theorem Value.written (level : Nat) (v : Value) (t : Bytes) :
    Written v.tree (encode (v.chars layout level) ++ t) t := by
  match v with
  | .null => exact .null
  | .flag b => cases b <;> exact .flag
  | .natural n => exact .number (literal_plain n)
  | .number x => exact written_number x t
  | .text s => exact written_text s t
  | .list [] => exact .list (.none .none)
  | .list (v :: items) =>
    have close : Gap (encode (layout.beforeEnd level) ++ (ascii ']' :: t)) (ascii ']' :: t) :=
      (spaced.beforeEnd level).gap _
    have first := (spaced.beforeItem (level + 1)).gap
    have written := Written.list (.some (first _) (Value.written (level + 1) v _)
      (moreItems_written (level + 1) items close))
    simp only [Value.chars, List.append_assoc, List.cons_append, Text.Utf8.encode_append,
      Text.Utf8.encode_cons]
    exact written
  | .object [] => exact .object (.none .none)
  | .object ((key, v) :: members) =>
    have close : Gap (encode (layout.beforeEnd level) ++ (ascii '\x7d' :: t))
        (ascii '\x7d' :: t) := (spaced.beforeEnd level).gap _
    have first := (spaced.beforeItem (level + 1)).gap
    have written := Written.object (.some (first _)
      (member_quote key spaced.afterColon (Value.written (level + 1) v _))
      (moreMembers_written (level + 1) members close))
    simp only [Value.chars, List.append_assoc, List.cons_append, Text.Utf8.encode_append,
      Text.Utf8.encode_cons]
    exact written

theorem moreItems_written (level : Nat) (items : List Value) {s t : Bytes}
    (close : Gap s (ascii ']' :: t)) :
    More Written ']' (itemTrees items) (encode (moreItems layout level items) ++ s) t := by
  match items with
  | [] => exact .close close
  | v :: items =>
    have more := More.next .none ((spaced.beforeItem level).gap _) (Value.written level v _)
      (moreItems_written level items close)
    simp only [moreItems, List.append_assoc, List.cons_append, Text.Utf8.encode_append,
      Text.Utf8.encode_cons]
    exact more

theorem moreMembers_written (level : Nat) (members : List (String × Value)) {s t : Bytes}
    (close : Gap s (ascii '\x7d' :: t)) :
    More (Member Written) '\x7d' (memberTrees members)
      (encode (moreMembers layout level members) ++ s) t := by
  match members with
  | [] => exact .close close
  | (key, v) :: members =>
    have more := More.next .none ((spaced.beforeItem level).gap _)
      (member_quote key spaced.afterColon (Value.written level v _))
      (moreMembers_written level members close)
    simp only [moreMembers, List.append_assoc, List.cons_append, Text.Utf8.encode_append,
      Text.Utf8.encode_cons]
    exact more

end

theorem Value.document (v : Value) :
    Document v.tree (Bytes.ofString (String.ofList (v.chars layout 0))) := by
  have written := Value.written spaced 0 v []
  rw [List.append_nil] at written
  rw [Bytes.ofString, String.toList_ofList]
  exact ⟨.none, written, .none⟩

end

theorem Value.document_compact (v : Value) : Document v.tree (Bytes.ofString v.compact) :=
  v.document spaced_onOneLine

theorem Value.document_pretty (v : Value) : Document v.tree (Bytes.ofString v.pretty) :=
  v.document spaced_overLines

/-- A line break behind the text of a value belongs to no other value. -/
theorem Value.document_line (v : Value) : Document v.tree (Bytes.ofString s!"{v.pretty}\n") := by
  have newline : Gap (encode ['\n']) [] := .some (by decide) .none
  have written := Value.written spaced_overLines 0 v (encode ['\n'])
  rw [← Text.Utf8.encode_append] at written
  have bytes : Bytes.ofString s!"{v.pretty}\n" = encode (v.chars overLines 0 ++ ['\n']) := by
    simp [Bytes.ofString, toString, Value.pretty]
  rw [bytes]
  exact ⟨.none, written, newline⟩

end MetricLedger.Json
