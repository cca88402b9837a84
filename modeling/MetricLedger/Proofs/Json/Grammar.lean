import Mathlib.Algebra.Group.Nat.Defs
import MetricLedger.Json.Reader

/-!
# The grammar of JSON text

Which texts stand for which values, said without a reader. A relation `R x s t` holds when the text
`s` begins with a form of `x` that `t` follows. Numbers keep the literal they are written with, so
that what a reader makes of it is left open.
-/

namespace MetricLedger.Json

/-- A JSON value, its numbers as they are written. -/
inductive Tree
  | null
  | flag (b : Bool)
  | number (literal : Bytes)
  | text (s : String)
  | list (items : List Tree)
  | object (members : List (String × Tree))

/-- White space of any length, and what follows it. -/
inductive Gap : Bytes → Bytes → Prop
  | none {s : Bytes} : Gap s s
  | some {b : UInt8} {s t : Bytes} : isSpace b = true → Gap s t → Gap (b :: s) t

/-! ## Texts -/

/-- The letters of escapes and the characters they stand for. -/
def shortEscapes : List (Char × Char) :=
  [('"', '"'), ('\\', '\\'), ('/', '/'), ('b', '\x08'), ('f', '\x0c'), ('n', '\n'), ('r', '\r'),
    ('t', '\t')]

/-- A number escaped by four digits in either case. -/
inductive Quad : Nat → Bytes → Bytes → Prop
  | mk {a b c d : UInt8} {i j k l : Nat} {t : Bytes} :
      Text.Hex.byteValue? a = some i → Text.Hex.byteValue? b = some j →
      Text.Hex.byteValue? c = some k → Text.Hex.byteValue? d = some l →
      Quad (i * 16 ^ 3 + j * 16 ^ 2 + k * 16 + l)
        (ascii '\\' :: ascii 'u' :: a :: b :: c :: d :: t) t

/-- Characters up to a closing quote. Each of them stands for itself, unless it is a quote, a
backslash or a control character, or is escaped by a letter, by its code point or by the two
surrogates of it. -/
inductive Spelled : List Char → Bytes → Bytes → Prop
  | done {t : Bytes} : Spelled [] (ascii '"' :: t) t
  | plain {c : Char} {cs : List Char} {s t : Bytes} : 0x20 ≤ c.toNat → c ≠ '"' → c ≠ '\\' →
      Spelled cs s t → Spelled (c :: cs) (Text.Utf8.encodeChar c ++ s) t
  | short {letter c : Char} {cs : List Char} {s t : Bytes} : (letter, c) ∈ shortEscapes →
      Spelled cs s t → Spelled (c :: cs) (ascii '\\' :: ascii letter :: s) t
  | code {c : Char} {cs : List Char} {r s t : Bytes} : Quad c.toNat r s → Spelled cs s t →
      Spelled (c :: cs) r t
  | surrogates {c : Char} {high low : Nat} {cs : List Char} {q r s t : Bytes} :
      high < 0x400 → low < 0x400 → c.toNat = 0x10000 + high * 0x400 + low →
      Quad (0xD800 + high) q r → Quad (0xDC00 + low) r s → Spelled cs s t → Spelled (c :: cs) q t

/-! ## Numbers -/

def Digits (s : Bytes) : Prop := s ≠ [] ∧ ∀ b ∈ s, isDigit b = true

/-- A whole number without leading zeros. -/
inductive Whole : Bytes → Prop
  | zero : Whole [ascii '0']
  | digits {b : UInt8} {s : Bytes} : b ≠ ascii '0' → Digits (b :: s) → Whole (b :: s)

inductive Fraction : Bytes → Prop
  | none : Fraction []
  | some {s : Bytes} : Digits s → Fraction (ascii '.' :: s)

inductive Exponent : Bytes → Prop
  | none : Exponent []
  | some {mark : UInt8} {sign s : Bytes} : mark = ascii 'e' ∨ mark = ascii 'E' →
      sign = [] ∨ sign = [ascii '+'] ∨ sign = [ascii '-'] → Digits s →
      Exponent (mark :: (sign ++ s))

/-- A number as it may be written. -/
inductive Literal : Bytes → Prop
  | positive {w f e : Bytes} : Whole w → Fraction f → Exponent e → Literal (w ++ (f ++ e))
  | negative {w f e : Bytes} : Whole w → Fraction f → Exponent e →
      Literal (ascii '-' :: (w ++ (f ++ e)))

/-! ## Values -/

section
variable (item : α → Bytes → Bytes → Prop) (close : Char)

/-- The items after one item, each behind a comma, up to the closing bracket. -/
inductive More : List α → Bytes → Bytes → Prop
  | close {s t : Bytes} : Gap s (ascii close :: t) → More [] s t
  | next {x : α} {xs : List α} {s t u v w : Bytes} : Gap s (ascii ',' :: u) → Gap u v →
      item x v w → More xs w t → More (x :: xs) s t

/-- Items with commas between them, up to the closing bracket. -/
inductive Separated : List α → Bytes → Bytes → Prop
  | none {s t : Bytes} : Gap s (ascii close :: t) → Separated [] s t
  | some {x : α} {xs : List α} {s t u v : Bytes} : Gap s u → item x u v → More item close xs v t →
      Separated (x :: xs) s t

end

/-- A key, a colon and a value. -/
inductive Member (value : Tree → Bytes → Bytes → Prop) : String × Tree → Bytes → Bytes → Prop
  | mk {key : List Char} {x : Tree} {s t u v w : Bytes} : Spelled key s t → Gap t (ascii ':' :: u) →
      Gap u v → value x v w → Member value (String.ofList key, x) (ascii '"' :: s) w

/-- The texts of a value. -/
inductive Written : Tree → Bytes → Bytes → Prop
  | null {t : Bytes} : Written .null (Bytes.ofString "null" ++ t) t
  | flag {b : Bool} {t : Bytes} :
      Written (.flag b) (Bytes.ofString (if b then "true" else "false") ++ t) t
  | number {literal t : Bytes} : Literal literal → Written (.number literal) (literal ++ t) t
  | text {cs : List Char} {s t : Bytes} : Spelled cs s t →
      Written (.text (String.ofList cs)) (ascii '"' :: s) t
  | list {items : List Tree} {s t : Bytes} : Separated Written ']' items s t →
      Written (.list items) (ascii '[' :: s) t
  | object {members : List (String × Tree)} {s t : Bytes} :
      Separated (Member Written) '\x7d' members s t →
      Written (.object members) (ascii '\x7b' :: s) t

/-- A text that is a form of one value and nothing else. -/
inductive Document : Tree → Bytes → Prop
  | mk {x : Tree} {s t u : Bytes} : Gap s t → Written x t u → Gap u [] → Document x s

end MetricLedger.Json
