import MetricLedger.Failure.Io
import MetricLedger.Net.Url
import MetricLedger.Text.Integer
import MetricLedger.Text.Quoted

/-!
# Failures of a store

What can go wrong between the service and a database, and how it is told. `causes` lists what lies
beneath a failure, the nearest first.
-/

namespace MetricLedger

/-- Why a connection string cannot be used. -/
inductive ConnectionStringFault
  | url (fault : Net.Url.Fault)
  | integer (fault : Text.Integer.Fault)
  | address
  | notText (malformed : Text.Utf8.Malformed)
  | sslMode (value : String)
  | other (text : String)
deriving DecidableEq, Repr

def unknownSslMode (value : String) : String :=
  s!"unknown value {Text.Quoted.quote value} for `ssl_mode`"

def ConnectionStringFault.message : ConnectionStringFault → String
  | .url fault => fault.message
  | .integer fault => fault.message
  | .address => "invalid IP address syntax"
  | .notText malformed => malformed.message
  | .sslMode value => s!"error with configuration: {unknownSslMode value}"
  | .other text => text

/-- What a server reports when it refuses a statement or a connection. -/
structure ServerReport where
  severity : String
  code : String
  message : String
deriving DecidableEq, Repr

/-- Why a cell of a row cannot be turned into the field of its column. -/
inductive CellFault
  | null
  | incompatible (field : String) (expected found : String)
  | malformed (text : String)
deriving DecidableEq, Repr

def CellFault.message : CellFault → String
  | .null => "unexpected null; try decoding as an `Option`"
  | .incompatible field expected found =>
    s!"mismatched types; Rust type `{field}` (as SQL type `{expected}`) is not compatible with " ++
      s!"SQL type `{found}`"
  | .malformed text => text

inductive StoreFault
  | rowNotFound
  | poolTimedOut
  | poolClosed
  | workerCrashed
  | protocol (text : String)
  | columnNotFound (name : String)
  | typeNotFound (name : String)
  | columnOutOfBounds (index length : Nat)
  | configuration (fault : ConnectionStringFault)
  | tls (text : String)
  | decode (text : String)
  | encode (text : String)
  | io (fault : IoFault)
  | database (report : ServerReport)
  | column (name : String) (fault : CellFault)
  | other (text : String) (causes : List String)
deriving DecidableEq, Repr

namespace StoreFault

def message : StoreFault → String
  | .rowNotFound => "no rows returned by a query that expected to return at least one row"
  | .poolTimedOut => "pool timed out while waiting for an open connection"
  | .poolClosed => "attempted to acquire a connection on a closed pool"
  | .workerCrashed => "attempted to communicate with a crashed background worker"
  | .protocol text => s!"encountered unexpected or invalid data: {text}"
  | .columnNotFound name => s!"no column found for name: {name}"
  | .typeNotFound name => s!"type named {name} not found"
  | .columnOutOfBounds index length =>
    s!"column index out of bounds: the len is {length}, but the index is {index}"
  | .configuration fault => s!"error with configuration: {fault.message}"
  | .tls text => s!"error occurred while attempting to establish a TLS connection: {text}"
  | .decode text => s!"error occurred while decoding: {text}"
  | .encode text => s!"error occurred while encoding a value: {text}"
  | .io fault => s!"error communicating with database: {fault.message}"
  | .database report => s!"error returned from database: {report.message}"
  | .column name fault => s!"error occurred while decoding column \"{name}\": {fault.message}"
  | .other text _ => text

/-- The texts of what lies beneath a failure. -/
def causes : StoreFault → List String
  | .configuration (.sslMode value) =>
    [ConnectionStringFault.message (.sslMode value), unknownSslMode value]
  | .configuration fault => [fault.message]
  | .tls text | .decode text | .encode text => [text]
  | .io fault => [fault.message]
  | .database report => [report.message]
  | .column _ fault => [fault.message]
  | .other _ causes => causes
  | _ => []

end StoreFault

end MetricLedger
