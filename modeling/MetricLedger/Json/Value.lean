import MetricLedger.Json.Number
import MetricLedger.Text.Hex

/-!
# JSON values and their text

Values are written on one line, or laid out over lines with two spaces for each level. Texts are
escaped where JSON demands it and nowhere else.
-/

namespace MetricLedger.Json

inductive Value
  | null
  | flag (b : Bool)
  | natural (n : Nat)
  | number (x : Double)
  | text (s : String)
  | list (items : List Value)
  | object (members : List (String × Value))

def escape (c : Char) : List Char :=
  match c with
  | '"' => ['\\', '"']
  | '\\' => ['\\', '\\']
  | '\x08' => ['\\', 'b']
  | '\x0c' => ['\\', 'f']
  | '\n' => ['\\', 'n']
  | '\r' => ['\\', 'r']
  | '\t' => ['\\', 't']
  | c => if c.toNat < 0x20 then '\\' :: 'u' :: Text.Hex.digits 4 c.toNat else [c]

/-- A text between quotes. -/
def quote (s : String) : List Char := '"' :: s.toList.flatMap escape ++ ['"']

/-- How the parts of lists and objects are set apart, at each level. -/
structure Layout where
  /-- What stands before each item of a list or object, given the level of the items. -/
  beforeItem : Nat → List Char
  /-- What stands before the closing bracket of one that is not empty, given its own level. -/
  beforeEnd : Nat → List Char
  afterColon : List Char

def newline (level : Nat) : List Char := '\n' :: List.replicate (2 * level) ' '

def onOneLine : Layout := ⟨fun _ => [], fun _ => [], []⟩

def overLines : Layout := ⟨newline, newline, [' ']⟩

mutual

def Value.chars (layout : Layout) (level : Nat) : Value → List Char
  | .null => ['n', 'u', 'l', 'l']
  | .flag b => if b then ['t', 'r', 'u', 'e'] else ['f', 'a', 'l', 's', 'e']
  | .natural n => Text.Digits.plain n
  | .number x => (numberText x).toList
  | .text s => quote s
  | .list [] => ['[', ']']
  | .list (v :: vs) =>
    '[' :: layout.beforeItem (level + 1) ++ v.chars layout (level + 1) ++
      moreItems layout (level + 1) vs ++ layout.beforeEnd level ++ [']']
  | .object [] => ['\x7b', '\x7d']
  | .object ((key, v) :: members) =>
    '\x7b' :: layout.beforeItem (level + 1) ++ quote key ++ ':' :: layout.afterColon ++
      v.chars layout (level + 1) ++ moreMembers layout (level + 1) members ++
      layout.beforeEnd level ++ ['\x7d']

/-- The items after the first. -/
def moreItems (layout : Layout) (level : Nat) : List Value → List Char
  | [] => []
  | v :: vs =>
    ',' :: layout.beforeItem level ++ v.chars layout level ++ moreItems layout level vs

/-- The members after the first. -/
def moreMembers (layout : Layout) (level : Nat) : List (String × Value) → List Char
  | [] => []
  | (key, v) :: members =>
    ',' :: layout.beforeItem level ++ quote key ++ ':' :: layout.afterColon ++
      v.chars layout level ++ moreMembers layout level members

end

def Value.compact (v : Value) : String := String.ofList (v.chars onOneLine 0)

def Value.pretty (v : Value) : String := String.ofList (v.chars overLines 0)

end MetricLedger.Json
