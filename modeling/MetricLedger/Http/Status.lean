/-!
# Status of an answer
-/

namespace MetricLedger.Http

inductive Status
  | ok
  | created
  | badRequest
  | notFound
  | methodNotAllowed
  | payloadTooLarge
  | internalError
deriving DecidableEq, Repr

def Status.code : Status → Nat
  | .ok => 200
  | .created => 201
  | .badRequest => 400
  | .notFound => 404
  | .methodNotAllowed => 405
  | .payloadTooLarge => 413
  | .internalError => 500

end MetricLedger.Http
