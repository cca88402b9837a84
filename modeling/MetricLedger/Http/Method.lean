/-!
# Request methods

Any token is a method. The methods that the service treats in a way of their own are named.
-/

namespace MetricLedger.Http

/-- The characters of tokens, which methods and header names are made of. -/
def isTokenChar (c : Char) : Bool :=
  ('a' ≤ c && c ≤ 'z') || ('A' ≤ c && c ≤ 'Z') || ('0' ≤ c && c ≤ '9')
    || "!#$%&'*+-.^_`|~".toList.contains c

def isToken (s : String) : Bool := !s.isEmpty && s.toList.all isTokenChar

inductive Method
  | get
  | head
  | post
  | options
  | other (token : String)
deriving DecidableEq, Repr

/-- Methods are told apart by case. -/
def Method.ofString? (s : String) : Option Method :=
  if isToken s then
    some (match s with
      | "GET" => .get
      | "HEAD" => .head
      | "POST" => .post
      | "OPTIONS" => .options
      | token => .other token)
  else none

end MetricLedger.Http
