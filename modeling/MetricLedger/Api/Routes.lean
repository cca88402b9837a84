import MetricLedger.Api.Handlers

/-!
# Routes

There is one path. Which of the handlers answers is decided by the method; where cross-origin
callers are allowed, every `OPTIONS` request is a preflight and answered at once, and every answer
says so in its headers.
-/

namespace MetricLedger.Api

def mountPoint : String := "/api/v1"

def metricsPath : String := "/health/metrics"

/-- The path of the records, compared byte for byte. -/
def path : Bytes := Bytes.ofString (mountPoint ++ metricsPath)

inductive Route
  /-- A preflight, on the path of the records or elsewhere. -/
  | preflight (known : Bool)
  | unknown
  | list
  /-- Like `list`, but the answer goes without its body. -/
  | listHead
  | create
  | notAllowed
deriving DecidableEq, Repr

def route (cors : Bool) (method : Http.Method) (target : Http.Target) : Route :=
  if cors ∧ method = .options then .preflight (target.path == path)
  else if target.path ≠ path then .unknown
  else match method with
    | .get => .list
    | .head => .listHead
    | .post => .create
    | _ => .notAllowed

def allow : Http.Header := ⟨"allow", "GET,HEAD,POST"⟩

/-- What every answer to cross-origin callers carries. -/
def corsHeaders : List Http.Header :=
  [⟨"access-control-allow-origin", "*"⟩,
    ⟨"vary", "origin, access-control-request-method, access-control-request-headers"⟩]

def preflightHeaders : List Http.Header :=
  [⟨"access-control-allow-methods", "*"⟩, ⟨"access-control-allow-headers", "*"⟩]

/-- The answer before the headers for cross-origin callers are added. -/
def answerRoute (store : Store σ) (stamp : Stamp) (r : Http.Request) (s : σ) :
    Route → Http.Answer × σ
  | .preflight known => (.empty .ok (preflightHeaders ++ if known then [allow] else []), s)
  | .unknown => (.empty .notFound [], s)
  | .list => list store (r.target.query.getD []) s
  | .listHead =>
    let (a, s) := list store (r.target.query.getD []) s
    (a.withoutBody, s)
  | .create => create store stamp r.body s
  | .notAllowed => (.empty .methodNotAllowed [allow], s)

/-- Answers one request. The stamp marks the record, if the request makes one. -/
def answer (cors : Bool) (store : Store σ) (stamp : Stamp) (r : Http.Request) (s : σ) :
    Http.Answer × σ :=
  let (a, s) := answerRoute store stamp r s (route cors r.method r.target)
  (if cors then a.withHeaders corsHeaders else a, s)

/-- Answers requests in turn, each under a stamp of its own. -/
def run (cors : Bool) (store : Store σ) :
    List (Stamp × Http.Request) → σ → List Http.Answer × σ
  | [], s => ([], s)
  | (stamp, r) :: rest, s =>
    let (a, s) := answer cors store stamp r s
    let (as, s) := run cors store rest s
    (a :: as, s)

theorem answer_status (cors : Bool) (store : Store σ) (stamp : Stamp) (r : Http.Request) (s : σ) :
    (answer cors store stamp r s).1.status =
      (answerRoute store stamp r s (route cors r.method r.target)).1.status := by
  unfold answer
  cases cors <;> rfl

theorem answer_body (cors : Bool) (store : Store σ) (stamp : Stamp) (r : Http.Request) (s : σ) :
    (answer cors store stamp r s).1.body =
      (answerRoute store stamp r s (route cors r.method r.target)).1.body := by
  unfold answer
  cases cors <;> rfl

theorem answer_state (cors : Bool) (store : Store σ) (stamp : Stamp) (r : Http.Request) (s : σ) :
    (answer cors store stamp r s).2 =
      (answerRoute store stamp r s (route cors r.method r.target)).2 := rfl

theorem run_cons (cors : Bool) (store : Store σ) (x : Stamp × Http.Request)
    (rest : List (Stamp × Http.Request)) (s : σ) :
    run cors store (x :: rest) s =
      ((answer cors store x.1 x.2 s).1 :: (run cors store rest (answer cors store x.1 x.2 s).2).1,
        (run cors store rest (answer cors store x.1 x.2 s).2).2) := rfl

@[simp] theorem length_run (cors : Bool) (store : Store σ) (rs : List (Stamp × Http.Request))
    (s : σ) : (run cors store rs s).1.length = rs.length := by
  induction rs generalizing s with
  | nil => rfl
  | cons x rs ih => simp [run_cons, ih]

/-- A run goes on from the state that its first part leaves. -/
theorem run_append (cors : Bool) (store : Store σ) (rs ts : List (Stamp × Http.Request)) (s : σ) :
    run cors store (rs ++ ts) s =
      ((run cors store rs s).1 ++ (run cors store ts (run cors store rs s).2).1,
        (run cors store ts (run cors store rs s).2).2) := by
  induction rs generalizing s with
  | nil => rfl
  | cons x rs ih => simp [run_cons, ih]

theorem take_run (cors : Bool) (store : Store σ) (rs : List (Stamp × Http.Request)) (s : σ)
    (n : Nat) : (run cors store rs s).1.take n = (run cors store (rs.take n) s).1 := by
  have whole := run_append cors store (rs.take n) (rs.drop n) s
  rw [List.take_append_drop] at whole
  rw [whole]
  by_cases short : rs.length ≤ n
  · simp [List.drop_of_length_le short, List.take_of_length_le, short, run]
  · exact List.take_left' (by simp; omega)

end MetricLedger.Api
