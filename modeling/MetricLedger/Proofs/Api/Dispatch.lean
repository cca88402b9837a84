import MetricLedger.Proofs.Api.Buffering
import MetricLedger.Proofs.Http.Path

/-!
# Which requests are answered how

The token of the method and the text of the target put a request under one of five cases. Two of
them are those of the handlers. In the others the answer is settled: it is the same whatever the
request holds besides, and whatever store there is, which is left alone.
-/

namespace MetricLedger

/-- What methods tokens stand for. -/
theorem Http.Method.ofString?_eq_some {token : String} {method : Http.Method}
    (h : ofString? token = some method) :
    (method = .get ↔ token = "GET") ∧ (method = .head ↔ token = "HEAD") ∧
      (method = .post ↔ token = "POST") ∧ (method = .options ↔ token = "OPTIONS") := by
  unfold ofString? at h
  split at h
  · cases h
    split <;> simp_all
  · cases h

namespace Api

inductive Case
  | preflight
  | elsewhere
  | listing
  | recording
  | refused

/-- A method that asks what cross-origin callers may do, where there are any. -/
def Preflight (cors : Bool) (token : String) : Prop := cors = true ∧ token = "OPTIONS"

/-- Whether requests with a method and a target that are written so fall under a case. -/
def Case.Applies (cors : Bool) (token : String) (uri : Bytes) : Case → Prop
  | .preflight => Preflight cors token
  | .elsewhere => ¬ Preflight cors token ∧ ¬ Http.Target.Names path uri
  | .listing => ¬ Preflight cors token ∧ Http.Target.Names path uri ∧
      (token = "GET" ∨ token = "HEAD")
  | .recording => ¬ Preflight cors token ∧ Http.Target.Names path uri ∧ token = "POST"
  | .refused => ¬ Preflight cors token ∧ Http.Target.Names path uri ∧
      token ∉ ["GET", "HEAD", "POST"]

/-- An answer that method and target settle. No store is asked or changed, and neither the headers
nor the body of a request make a difference. -/
def Settles (cors : Bool) (method : Http.Method) (target : Http.Target) (a : Http.Answer) : Prop :=
  ∀ (σ : Type) (store : Store σ) (stamp : Stamp) (headers : List Http.Header) (body : Http.Body)
    (s : σ), answer cors store stamp ⟨method, target, headers, body⟩ s = (a, s)

/-- A handler decides the answer; it may go on without its body, and with more headers. -/
def Handles (cors : Bool) (method : Http.Method) (target : Http.Target)
    (handler : ∀ σ : Type, Store σ → Stamp → Http.Body → σ → Http.Answer × σ) : Prop :=
  ∀ (σ : Type) (store : Store σ) (stamp : Stamp) (headers : List Http.Header) (body : Http.Body)
    (s : σ),
    let made := handler σ store stamp body s
    answer cors store stamp ⟨method, target, headers, body⟩ s =
      (dress cors (if method = .head then made.1.withoutBody else made.1), made.2)

/-- How requests are answered that fall under a case. -/
def Case.Decides (cors : Bool) (method : Http.Method) (target : Http.Target) : Case → Prop
  | .preflight => ∃ a, Settles cors method target a ∧ a.status.code = 200 ∧ a.body = ""
  | .elsewhere => ∃ a, Settles cors method target a ∧ a.status.code = 404 ∧ a.body = ""
  | .listing => Handles cors method target fun _ store _ _ => list store (target.query.getD [])
  | .recording => Handles cors method target fun _ store stamp body => create store stamp body
  | .refused => ∃ a, Settles cors method target a ∧ a.status.code = 405 ∧ a.body = "" ∧
      a.headers.filter (·.name == "allow") = [⟨"allow", "GET,HEAD,POST"⟩]

/-! ## The cases exclude each other and leave nothing out -/

theorem exists_applies (cors : Bool) (token : String) (uri : Bytes) :
    ∃ c : Case, c.Applies cors token uri := by
  by_cases preflight : Preflight cors token
  · exact ⟨.preflight, preflight⟩
  · by_cases names : Http.Target.Names path uri
    · by_cases known : token ∈ ["GET", "HEAD", "POST"]
      · simp only [List.mem_cons, List.not_mem_nil, or_false, ← or_assoc] at known
        rcases known with reads | post
        · exact ⟨.listing, preflight, names, reads⟩
        · exact ⟨.recording, preflight, names, post⟩
      · exact ⟨.refused, preflight, names, known⟩
    · exact ⟨.elsewhere, preflight, names⟩

theorem Case.Applies.unique {cors : Bool} {token : String} {uri : Bytes} {c d : Case}
    (hc : c.Applies cors token uri) (hd : d.Applies cors token uri) : c = d := by
  cases c <;> cases d <;> grind [Case.Applies]

/-! ## What each of them decides -/

section
variable {cors : Bool} {method : Http.Method} {target : Http.Target}

/-- Where no handler is asked, the answer is settled, and empty. -/
theorem settles_empty {way : Route} (chosen : route cors method target = way)
    {status : Http.Status} {headers : List Http.Header}
    (alone : ∀ (σ : Type) (store : Store σ) (stamp : Stamp) (r : Http.Request) (s : σ),
      answerRoute store stamp r s way = (.empty status headers, s)) :
    let a := dress cors (.empty status headers)
    Settles cors method target a ∧ a.status.code = status.code ∧ a.body = "" := by
  refine ⟨fun σ store stamp headers body s => ?_, ?_, ?_⟩
  · rw [answer_eq, chosen, alone]
  · rw [dress_status]; rfl
  · rw [dress_body]; rfl

/-- On the path of the records, a preflight aside, the method decides. -/
theorem route_known (served : ¬ (cors = true ∧ method = .options)) (known : target.path = path) :
    route cors method target =
      match method with
      | .get => .list
      | .head => .listHead
      | .post => .create
      | _ => .notAllowed := by
  unfold route
  rw [if_neg served, if_neg (not_not.mpr known)]
  cases method <;> rfl

theorem decides_preflight (preflight : cors = true ∧ method = .options) :
    Case.preflight.Decides cors method target := by
  have way : route cors method target = .preflight (target.path == path) := by
    unfold route
    rw [if_pos preflight]
  exact ⟨_, settles_empty way fun _ _ _ _ _ => rfl⟩

variable (served : ¬ (cors = true ∧ method = .options))
include served

theorem decides_elsewhere (other : target.path ≠ path) :
    Case.elsewhere.Decides cors method target := by
  have way : route cors method target = .unknown := by
    unfold route
    rw [if_neg served, if_pos other]
  exact ⟨_, settles_empty way fun _ _ _ _ _ => rfl⟩

variable (known : target.path = path)
include known

theorem decides_listing (reads : method = .get ∨ method = .head) :
    Case.listing.Decides cors method target := by
  intro σ store stamp headers body s made
  have way := route_known served known
  rw [answer_eq, way]
  rcases reads with rfl | rfl
  · rfl
  · rfl

theorem decides_recording (writes : method = .post) :
    Case.recording.Decides cors method target := by
  intro σ store stamp headers body s made
  have way := route_known served known
  rw [answer_eq, way]
  subst writes
  rfl

theorem decides_refused (other : method ≠ .get ∧ method ≠ .head ∧ method ≠ .post) :
    Case.refused.Decides cors method target := by
  have way : route cors method target = .notAllowed := by
    rw [route_known served known]
    cases method <;> simp_all
  obtain ⟨settles, status, body⟩ := settles_empty way fun _ _ _ _ _ => rfl
  refine ⟨_, settles, status, body, ?_⟩
  cases cors
  · decide
  · decide

end

/-- A request falls under one case, by its method and its target alone, and that case decides what
is answered. -/
theorem dispatched (cors : Bool) {token : String} {uri : Bytes} {method : Http.Method}
    {target : Http.Target} (stands : Http.Method.ofString? token = some method)
    (read : Http.Target.parse uri = .ok target) :
    (∃! c : Case, c.Applies cors token uri) ∧
      ∀ c : Case, c.Applies cors token uri → c.Decides cors method target := by
  obtain ⟨get, head, post, options⟩ := Http.Method.ofString?_eq_some stands
  have preflight : cors = true ∧ method = .options ↔ Preflight cors token :=
    and_congr_right fun _ => options
  have names : target.path = path ↔ Http.Target.Names path uri :=
    Http.Target.path_eq_iff read (by decide +kernel) (by decide +kernel) (by decide +kernel)
  constructor
  · obtain ⟨c, applies⟩ := exists_applies cors token uri
    exact ⟨c, applies, fun d other => other.unique applies⟩
  · intro c applies
    cases c with
    | preflight => exact decides_preflight (preflight.mpr applies)
    | elsewhere =>
      exact decides_elsewhere (mt preflight.mp applies.1) (mt names.mp applies.2)
    | listing =>
      obtain ⟨served, known, reads⟩ := applies
      exact decides_listing (mt preflight.mp served) (names.mpr known)
        (reads.imp get.mpr head.mpr)
    | recording =>
      obtain ⟨served, known, writes⟩ := applies
      exact decides_recording (mt preflight.mp served) (names.mpr known) (post.mpr writes)
    | refused =>
      obtain ⟨served, known, other⟩ := applies
      simp only [List.mem_cons, List.not_mem_nil, or_false, not_or] at other
      exact decides_refused (mt preflight.mp served) (names.mpr known)
        ⟨mt get.mp other.1, mt head.mp other.2.1, mt post.mp other.2.2⟩

/-- A method is told by its case, so this one is refused; the path is found in a whole URL. -/
theorem get_in_lower_case_dispatched :
    let uri := Bytes.ofString "http://[::1]:80/api/v1/health/metrics?metric_name=%2F#top"
    let target : Http.Target := ⟨path, some (Bytes.ofString "metric_name=%2F")⟩
    Http.Method.ofString? "get" = some (.other "get") ∧ Http.Target.parse uri = .ok target ∧
      Case.refused.Applies true "get" uri ∧ Case.refused.Decides true (.other "get") target := by
  intro uri target
  have stands : Http.Method.ofString? "get" = some (.other "get") := by decide
  have read : Http.Target.parse uri = .ok target := by
    dsimp only [uri, target]
    decide +kernel
  have names : Http.Target.Names path uri := by
    have whole : uri = Bytes.ofString "http" ++ (Http.Target.schemeEnd ++
        (Bytes.ofString "[::1]:80" ++ (path ++ Bytes.ofString "?metric_name=%2F#top"))) := by
      dsimp only [uri]
      decide +kernel
    rw [whole]
    exact .absolute (by decide +kernel) (by decide +kernel) (by rintro b ⟨⟩; decide)
  have applies : Case.refused.Applies true "get" uri :=
    ⟨by simp [Preflight], names, by decide⟩
  exact ⟨stands, read, applies, (dispatched true stands read).2 .refused applies⟩

end Api

end MetricLedger
