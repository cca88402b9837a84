import MetricLedger.Cli.Command

/-!
# Help

The help of a command tells what it is for, how it is called, and what its arguments are. What an
argument is for stands beside it, in a column of its own, unless one of them is too wide for that;
then it stands below each of them. The long help of the program has more room.
-/

namespace MetricLedger.Cli

/-- The width that lines of help have. -/
def helpWidth : Nat := 100

def indent : String := "          "

/-- One entry of help: what is shown in front, how wide its own text is, what it is for, and the
remarks on its values. -/
structure Entry where
  front : String
  width : Nat
  about : String
  remarks : List String
deriving DecidableEq, Repr

namespace Entry

def ofCommand (c : Command) : Entry := ⟨s!"  {c.name}", c.name.length, c.about, []⟩

def ofPositional (p : Positional) : Entry := ⟨s!"  {p.label}", p.label.length, p.about, []⟩

/-- The remarks on a named argument, under the values of the environment. -/
def remarksOn (environment : String → Option String) (n : Named) : List String :=
  let source := n.source.map fun name =>
    let value := (environment name).getD ""
    s!"[env: {name}={value}]"
  let absent := n.absent.map fun value => s!"[default: {value}]"
  source.toList ++ absent.toList

def ofNamed (environment : String → Option String) (n : Named) : Entry :=
  let short := match n.short with
    | some c => s!"-{c}, "
    | none => "    "
  ⟨s!"  {short}{n.label}", n.label.length, n.about, remarksOn environment n⟩

def brief (e : Entry) : String := " ".intercalate (e.about :: e.remarks)

/-- The column in which the briefs of some entries would stand. -/
def column (es : List Entry) : Nat := es.foldl (fun n e => max n e.width) 0

/-- Whether what is told has no room beside entries of this width. -/
def isWide (width : Nat) (e : Entry) : Bool :=
  let taken := width + 12
  let told := e.about.length + (" ".intercalate e.remarks).length
  taken ≤ helpWidth && helpWidth * 2 < taken * 5 && helpWidth - taken < told

/-- Later lines of a text stand below its first. -/
def hang (s : String) : String := s.replace "\n" s!"\n{indent}"

def beside (width : Nat) (e : Entry) : String :=
  e.front ++ String.ofList (List.replicate (width + 2 - e.width) ' ') ++ e.brief

def below (e : Entry) : String := s!"{e.front}\n{indent}{hang e.brief}"

/-- An entry of a long help. -/
def spacious (e : Entry) : String :=
  let remarks := if e.remarks.isEmpty then "" else "\n\n" ++ "\n".intercalate e.remarks
  s!"{e.front}\n{indent}{hang (e.about ++ remarks)}"

end Entry

/-- Entries under a title, if there are any. -/
def helpSection (title : String) (es : List Entry) : List String :=
  let width := Entry.column es
  let lines :=
    if es.any (Entry.isWide width) then es.map Entry.below else es.map (Entry.beside width)
  if es.isEmpty then [] else [s!"{title}:\n" ++ "\n".intercalate lines]

namespace Command

/-- What the help says about the argument that shows it. -/
def helpAbout (c : Command) (long : Bool) : String :=
  if c ≠ .main then "Print help"
  else if long then "Print help (see a summary with '-h')"
  else "Print help (see more with '--help')"

def namedEntries (c : Command) (environment : String → Option String) (long : Bool) :
    List Entry :=
  c.named.map fun n =>
    let entry := Entry.ofNamed environment n
    if n.action = .help then { entry with about := c.helpAbout long } else entry

/-- What may follow the command of help. -/
def helpTopics : Entry :=
  ⟨"  [COMMAND]...", "[COMMAND]...".length, "Print help for the subcommand(s)", []⟩

def positionalEntries (c : Command) : List Entry :=
  if c = .help then [helpTopics] else c.positionals.map Entry.ofPositional

/-- The help of a command. Only the program itself has a long one. -/
def helpText (c : Command) (environment : String → Option String) (long : Bool) : String :=
  let long := long && c = .main
  let options := c.namedEntries environment long
  let optionSections :=
    if long then ["Options:\n" ++ "\n\n".intercalate (options.map Entry.spacious)]
    else helpSection "Options" options
  let sections :=
    helpSection "Commands" (c.subcommands.map Entry.ofCommand)
      ++ helpSection "Arguments" c.positionalEntries ++ optionSections
  let opening := [if long then c.longAbout else c.about, s!"Usage: {c.usage}"]
  "\n\n".intercalate (opening ++ sections) ++ "\n"

end Command

def versionText : String := s!"{Service.programName} 0.1.0\n"

end MetricLedger.Cli
