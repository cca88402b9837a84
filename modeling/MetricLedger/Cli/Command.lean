import MetricLedger.Cli.Value
import MetricLedger.Service.Parts
import MetricLedger.Settings.Database
import MetricLedger.Settings.Listener

/-!
# Commands

The commands of the program, and for each of them its named and its positional arguments and the
commands that may follow. Help and usage texts are made of these descriptions.
-/

namespace MetricLedger.Cli

/-- What a named argument does. -/
inductive Action
  /-- It turns something on. -/
  | switch
  | value (kind : ValueKind) (title : String)
  | help
  | version
deriving DecidableEq, Repr

structure Named where
  long : String
  short : Option Char := none
  action : Action := .switch
  about : String
  /-- The value that it has when it is not given. -/
  absent : Option String := none
  /-- The variable of the environment that gives its value. -/
  source : Option String := none
deriving DecidableEq, Repr

structure Positional where
  title : String
  kind : ValueKind := .text
  about : String
  /-- Whether a text that looks like a negative number is meant as its value. -/
  takesNegative : Bool := false
deriving DecidableEq, Repr

inductive Arg
  | named (n : Named)
  | positional (p : Positional)
deriving DecidableEq, Repr

/-- An argument as usage lines show it. -/
def Named.label (n : Named) : String :=
  match n.action with
  | .value _ title => s!"--{n.long} <{title}>"
  | _ => s!"--{n.long}"

def Positional.label (p : Positional) : String := s!"<{p.title}>"

def Arg.label : Arg → String
  | .named n => n.label
  | .positional p => p.label

inductive Command
  | main
  | serve
  | migrate
  | record
  | query
  | help
deriving DecidableEq, Repr

namespace Command

def name : Command → String
  | .main => Service.programName
  | .serve => "serve"
  | .migrate => "migrate"
  | .record => "record"
  | .query => "query"
  | .help => "help"

/-- The words by which a command is called. -/
def path (c : Command) : String :=
  if c = .main then c.name else s!"{Command.main.name} {c.name}"

def about : Command → String
  | .main => "Record and query system health metrics"
  | .serve => "Start the web server (default)"
  | .migrate => "Create the metrics table and index, then exit"
  | .record => "Record a single metric and print it"
  | .query => "Print stored metrics as JSON"
  | .help => "Print this message or the help of the given subcommand(s)"

def longAbout : Command → String
  | .main => "A small HTTP service that records system health metrics in PostgreSQL"
  | c => c.about

def subcommands : Command → List Command
  | .main => [.serve, .migrate, .record, .query, .help]
  | _ => []

def sub? (c : Command) (word : String) : Option Command := c.subcommands.find? (·.name == word)

/-! ## Arguments -/

def host : Named where
  long := "host"
  action := .value .text "HOST"
  about := "Web server bind address"
  absent := some ({} : Settings.Listener).host

def port : Named where
  long := "port"
  short := some 'p'
  action := .value (.bounded 65535) "PORT"
  about := "Web server port"
  absent := some (toString Settings.defaultPort.toNat)

def databaseUrl : Named where
  long := "database-url"
  action := .value .text "DATABASE_URL"
  about := "PostgreSQL connection string"
  absent := some Settings.defaultUrl
  source := some "DATABASE_URL"

def maxConnections : Named where
  long := "max-connections"
  action := .value (.bounded 4294967295) "MAX_CONNECTIONS"
  about := "Maximum pooled database connections"
  absent := some (toString Settings.defaultMaxConnections.toNat)

def inMemory : Named where
  long := "in-memory"
  about := "Keep metrics in memory instead of PostgreSQL (lost on exit)"

def verbose : Named where
  long := "verbose"
  short := some 'v'
  about := "Enable verbose logging"

def debug : Named where
  long := "debug"
  short := some 'd'
  about := "Enable debug logging"

def noCors : Named where
  long := "no-cors"
  about := "Disable CORS headers"

def sampleInterval : Named where
  long := "sample-interval-ms"
  action := .value .whole "SAMPLE_INTERVAL_MS"
  about := "Record host CPU/memory samples at this interval in milliseconds"

def nameFilter : Named where
  long := "name"
  short := some 'n'
  action := .value .text "NAME"
  about := "Only show metrics with this exact name"

def helpFlag : Named where
  long := "help"
  short := some 'h'
  action := .help
  about := "Print help"

def versionFlag : Named where
  long := "version"
  short := some 'V'
  action := .version
  about := "Print version"

def metricName : Positional where
  title := "NAME"
  about := "Metric name (e.g., \"cpu_usage\")"

def metricType : Positional where
  title := "METRIC_TYPE"
  about := "Metric type (e.g., \"gauge\", \"counter\")"

def metricValue : Positional where
  title := "VALUE"
  kind := .decimal
  about := "Measured value"
  takesNegative := true

/-- Named arguments in the order in which help shows them. -/
def named : Command → List Named
  | .main =>
    [host, port, databaseUrl, maxConnections, inMemory, verbose, debug, helpFlag, versionFlag]
  | .serve => [noCors, sampleInterval, helpFlag]
  | .migrate | .record => [helpFlag]
  | .query => [nameFilter, helpFlag]
  | .help => []

/-- Positional arguments; each of them is required. -/
def positionals : Command → List Positional
  | .record => [metricName, metricType, metricValue]
  | _ => []

def long? (c : Command) (word : String) : Option Named := c.named.find? (·.long == word)

def short? (c : Command) (letter : Char) : Option Named :=
  c.named.find? (·.short == some letter)

def hasHelp (c : Command) : Bool := c.named.contains helpFlag

/-! ## Usage lines -/

def isMeta (n : Named) : Bool := n.action = .help || n.action = .version

def usageWords (c : Command) : List String :=
  (if c.named.any (!isMeta ·) then ["[OPTIONS]"] else [])
    ++ c.positionals.map (·.label)
    ++ (if c.subcommands.isEmpty then [] else ["[COMMAND]"])
    ++ (if c = .help then ["[COMMAND]..."] else [])

def usage (c : Command) : String := " ".intercalate (c.path :: c.usageWords)

/-- The usage line that shows the arguments which were given, instead of all that there are. -/
def usageOf (c : Command) (given : List Named) : String :=
  if given.isEmpty then c.usage
  else
    let labels := (given.map (·.label)).eraseDups
    " ".intercalate (c.path :: labels ++ c.positionals.map (·.label))

end Command

end MetricLedger.Cli
