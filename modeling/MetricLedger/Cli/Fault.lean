import MetricLedger.Cli.Command

/-!
# Faults of a command line

Why a command line is not understood, and what is said about it: the fault, perhaps a tip, perhaps
how the command is called, and where more is told.
-/

namespace MetricLedger.Cli

/-- What might have been meant by an argument that is not known. -/
inductive Tip
  | similar (long : String)
  /-- Another command has it. -/
  | elsewhere (command : Command) (long : String)
  /-- It is a value, not an argument. -/
  | asValue
deriving DecidableEq, Repr

inductive FaultKind
  | unknown (word : String) (tip : Option Tip)
  | unknownCommand (word : String) (similar : List String)
  /-- A command stands behind two dashes. -/
  | needlessDashes (word : String)
  | noValue (arg : Arg)
  | badValue (word : String) (arg : Arg) (fault : ValueFault)
  | repeated (arg : Arg)
  | needlessValue (word : String) (arg : Named)
  | missing (args : List Positional)
deriving DecidableEq, Repr

/-- A fault, the command in which it arises, and the arguments that were given to it. -/
structure Fault where
  command : Command
  given : List Named
  kind : FaultKind
deriving DecidableEq, Repr

def Tip.text (word : String) : Tip → String
  | .similar long => s!"a similar argument exists: '--{long}'"
  | .elsewhere command long => s!"'{command.name} --{long}' exists"
  | .asValue => s!"to pass '{word}' as a value, use '-- {word}'"

/-- The tip for a mistyped command. -/
def similarCommands (names : List String) : Option String :=
  let quoted := ", ".intercalate (names.map fun name => s!"'{name}'")
  match names with
  | [] => none
  | [_] => some s!"a similar subcommand exists: {quoted}"
  | _ => some s!"some similar subcommands exist: {quoted}"

namespace FaultKind

def text : FaultKind → String
  | .unknown word _ | .needlessDashes word => s!"unexpected argument '{word}' found"
  | .unknownCommand word _ => s!"unrecognized subcommand '{word}'"
  | .noValue arg => s!"a value is required for '{arg.label}' but none was supplied"
  | .badValue word arg fault => s!"invalid value '{word}' for '{arg.label}': {fault.message}"
  | .repeated arg => s!"the argument '{arg.label}' cannot be used multiple times"
  | .needlessValue word arg =>
    s!"unexpected value '{word}' for '{arg.label}' found; no more were expected"
  | .missing args =>
    "the following required arguments were not provided:"
      ++ String.join (args.map fun p => s!"\n  {p.label}")

def tip? : FaultKind → Option String
  | .unknown word tip => tip.map (·.text word)
  | .unknownCommand _ names => similarCommands names
  | .needlessDashes word =>
    some s!"subcommand '{word}' exists; to use it, remove the '--' before it"
  | _ => none

/-- Whether it helps to show how the command is called. -/
def showsUsage : FaultKind → Bool
  | .noValue _ | .badValue .. => false
  | _ => true

end FaultKind

namespace Fault

def message (f : Fault) : String :=
  let tip := match f.kind.tip? with
    | some tip => s!"\n\n  tip: {tip}"
    | none => ""
  let usage := if f.kind.showsUsage then s!"\n\nUsage: {f.command.usageOf f.given}" else ""
  let more := if f.command.hasHelp then "\n\nFor more information, try '--help'.\n" else "\n"
  s!"error: {f.kind.text}{tip}{usage}{more}"

end Fault

end MetricLedger.Cli
