import MetricLedger.Text.Hex
import MetricLedger.Text.Pieces
import MetricLedger.Text.Utf8

/-!
# Form-encoded parameters

A query is a list of parameters between ampersands, each a key and a value around the first equals
sign. In both a plus sign stands for a space and a percent sign with two digits for a byte.
-/

namespace MetricLedger.Http.Form

/-- The byte that two digits at the front of a text stand for. -/
def pair? : Bytes → Option UInt8
  | c :: d :: _ =>
    match Text.Hex.byteValue? c, Text.Hex.byteValue? d with
    | some c, some d => some (c * 16 + d).toUInt8
    | _, _ => none
  | _ => none

/-- Percent signs that no two digits follow stand for themselves. -/
def percentDecode : Bytes → Bytes
  | [] => []
  | b :: s =>
    if b = ascii '%' then
      match pair? s with
      | some c => c :: percentDecode (s.drop 2)
      | none => b :: percentDecode s
    else b :: percentDecode s
termination_by s => s.length
decreasing_by all_goals simp only [List.length_cons, List.length_drop]; omega

def plusToSpace (s : Bytes) : Bytes := s.map fun b => if b = ascii '+' then ascii ' ' else b

def decode (s : Bytes) : String :=
  String.ofList (Text.Utf8.decodeLossy (percentDecode (plusToSpace s)))

/-- The key and value of one parameter; without an equals sign the value is empty. -/
def parameter (s : Bytes) : String × String :=
  match Text.cut? (ascii '=') s with
  | some (key, value) => (decode key, decode value)
  | none => (decode s, "")

/-- The parameters of a query in order; nothing between two ampersands is no parameter. -/
def parameters (query : Bytes) : List (String × String) :=
  ((Text.split (ascii '&') query).filter (!·.isEmpty)).map parameter

/-- The values of all parameters with a key. -/
def values (key : String) (query : Bytes) : List String :=
  ((parameters query).filter (·.1 == key)).map Prod.snd

end MetricLedger.Http.Form
