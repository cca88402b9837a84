import MetricLedger.Failure.Store

/-!
# Connection strings

A connection string is a URL that says where a database is and who connects to it. Parameters in its
query override what stands before them. Unknown ones are set aside, and reading stops at the first
one that is wrong.
-/

namespace MetricLedger.Postgres

/-- Where a database is, and who connects. -/
structure Destination where
  host : String := "localhost"
  port : UInt16 := 5432
  /-- The directory of a local socket; it goes before the host. -/
  socket : Option String := none
  user : Option String := none
  database : Option String := none
deriving DecidableEq, Repr

namespace Destination

/-- The directory of the socket to connect to, if it is not a host. -/
def directory? (d : Destination) : Option String :=
  match d.socket with
  | some directory => some directory
  | none => if d.host.toList.head? = some '/' then some d.host else none

/-- A part of a URL with its percent signs decoded. -/
def decoded (cs : List Char) : Except ConnectionStringFault String :=
  let bytes := Http.Form.percentDecode (Text.Utf8.encode cs)
  match Text.Utf8.malformed? 0 bytes with
  | some malformed => .error (.notText malformed)
  | none => .ok (String.ofList (Text.Utf8.decodeLossy bytes))

/-- A decoded part, if there is one. -/
def decoded? (cs : List Char) : Except ConnectionStringFault (Option String) :=
  if cs.isEmpty then .ok none else (decoded cs).map some

/-- A host that decodes to an absolute path is the directory of a socket. -/
def withUrlHost (d : Destination) (host : List Char) :
    Except ConnectionStringFault Destination :=
  if (Http.Form.percentDecode (Text.Utf8.encode host)).head? = some (ascii '/') then
    (decoded host).map fun directory => { d with socket := some directory }
  else .ok { d with host := String.ofList host }

/-- What the URL says before its query. -/
def ofUrl (url : Net.Url) : Except ConnectionStringFault Destination := do
  let d ← match url.host with
    | some host => withUrlHost {} host
    | none => .ok {}
  let user ← decoded? url.user
  let _ ← decoded? url.password
  let database ← decoded? (url.path.dropWhile (· == '/'))
  .ok { d with port := url.port.getD d.port, user, database }

def withHost (d : Destination) (host : String) : Destination :=
  if host.toList.head? = some '/' then { d with socket := some host } else { d with host }

def sslModes : List String := ["disable", "allow", "prefer", "require", "verify-ca", "verify-full"]

def checkSslMode (value : String) : Except ConnectionStringFault Unit :=
  if sslModes.contains (String.ofList (value.toList.map Char.toLower)) then .ok ()
  else .error (.sslMode value)

def natural (most : Nat) (value : String) : Except ConnectionStringFault Nat :=
  (Text.Integer.natural most value.toList).mapError .integer

/-- Parameters that are known and do not change where to connect. -/
def isSetting (key : String) : Bool :=
  ["sslrootcert", "ssl-root-cert", "ssl-ca", "sslcert", "ssl-cert", "sslkey", "ssl-key",
    "password", "application_name", "options"].contains key
    || (Text.after? "options[".toList key.toList).isSome

/-- The effect of one parameter; `none` if it is unknown. -/
def withParameter (d : Destination) (key value : String) :
    Option (Except ConnectionStringFault Destination) :=
  match key with
  | "sslmode" | "ssl-mode" => some ((checkSslMode value).map fun _ => d)
  | "statement-cache-capacity" => some ((natural (UInt64.size - 1) value).map fun _ => d)
  | "host" => some (.ok (d.withHost value))
  | "hostaddr" =>
    some (match Net.IpAddress.parse? value.toList with
      | some _ => .ok { d with host := value }
      | none => .error .address)
  | "port" => some ((natural 65535 value).map fun n => { d with port := n.toUInt16 })
  | "dbname" => some (.ok { d with database := some value })
  | "user" => some (.ok { d with user := some value })
  | key => if isSetting key then some (.ok d) else none

/-- The effect of parameters in their order, and the unknown ones among those that were read. -/
def withParameters (d : Destination) : List (String × String) →
    List (String × String) × Except ConnectionStringFault Destination
  | [] => ([], .ok d)
  | (key, value) :: rest =>
    match d.withParameter key value with
    | some (.ok d) => d.withParameters rest
    | some (.error f) => ([], .error f)
    | none =>
      let (unknown, result) := d.withParameters rest
      ((key, value) :: unknown, result)

/-- Where a connection string leads, and its unknown parameters. -/
def ofString (s : String) : List (String × String) × Except ConnectionStringFault Destination :=
  match (Net.Url.parse s).mapError ConnectionStringFault.url with
  | .error f => ([], .error f)
  | .ok url =>
    match ofUrl url with
    | .error f => ([], .error f)
    | .ok d => d.withParameters url.parameters

end Destination

end MetricLedger.Postgres
