import MetricLedger.Text.Hex
import MetricLedger.Text.Printable

/-!
# Quoted text

How messages quote a text: between double quotes, with an escape for each quote, backslash and
character that does not show by itself.
-/

namespace MetricLedger.Text.Quoted

def escape (c : Char) : List Char :=
  match c with
  | '\x00' => ['\\', '0']
  | '\t' => ['\\', 't']
  | '\r' => ['\\', 'r']
  | '\n' => ['\\', 'n']
  | '\\' => ['\\', '\\']
  | '"' => ['\\', '"']
  | c =>
    if isPrintable c then [c] else '\\' :: 'u' :: '\x7b' :: Hex.plain c.toNat ++ ['\x7d']

def quote (s : String) : String := String.ofList ('"' :: s.toList.flatMap escape ++ ['"'])

end MetricLedger.Text.Quoted
