import MetricLedger.Failure.Basic

/-!
# Reports

How the program says why it failed: in one sentence, with the causes beneath it, the nearest first.
A single cause stands by itself, several are numbered.
-/

namespace MetricLedger.Cli

structure Report where
  headline : String
  causes : List String := []
deriving DecidableEq, Repr

namespace Report

def ofFailure (f : Failure) : Report := ⟨f.message, f.causes⟩

/-- What was to be done when a failure came. -/
def during (headline : String) (f : Failure) : Report := ⟨headline, f.message :: f.causes⟩

/-- A number in five places. -/
def numbered (n : Nat) : String :=
  let digits := Text.Digits.plain n
  String.ofList (List.replicate (5 - digits.length) ' ' ++ digits) ++ ": "

/-- The lines of the causes; later lines of one stand below its first. -/
def causeLines (causes : List String) : List String :=
  match causes with
  | [] => []
  | [cause] => ["    " ++ cause.replace "\n" "\n    "]
  | causes => causes.zipIdx.map fun (cause, n) => numbered n ++ cause.replace "\n" "\n       "

def text (r : Report) : String :=
  let causes := match causeLines r.causes with
    | [] => ""
    | lines => "\n\nCaused by:\n" ++ "\n".intercalate lines
  s!"Error: {r.headline}{causes}\n"

end Report

end MetricLedger.Cli
