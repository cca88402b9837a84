import Mathlib.Data.List.Forall2
import MetricLedger.Proofs.Api.Buffering

/-!
# Cross-origin callers

Allowing cross-origin callers puts the same headers on every answer and changes nothing else, but
for `OPTIONS` requests. These are answered without the store, so that it makes no difference to
other requests whether any come between them.
-/

namespace MetricLedger.Api

/-- The answer is another one with the headers for cross-origin callers. -/
def Shares (a b : Http.Answer) : Prop :=
  a.status = b.status ∧ a.body = b.body ∧ a.headers = corsHeaders ++ b.headers

/-- The members of a list that bear no mark. -/
def unmarked (xs : List (Bool × α)) : List α :=
  xs.filterMap fun (marked, x) => if marked then none else some x

section
variable (store : Store σ)

/-! ## Requests that are no preflight -/

theorem answer_shared (stamp : Stamp) {r : Http.Request} (h : r.method ≠ .options) (s : σ) :
    answer true store stamp r s =
      ((answer false store stamp r s).1.withHeaders corsHeaders, (answer false store stamp r s).2)
    := by
  have way : route true r.method r.target = route false r.method r.target := by
    simp only [route, h, and_false, if_false]
  rw [answer_eq, answer_eq, way]
  rfl

/-- The state goes the same way in both runs, and so each request is met by the same state. -/
theorem run_shared {rs : List (Stamp × Http.Request)} (h : ∀ x ∈ rs, x.2.method ≠ .options)
    (s : σ) : run true store rs s =
      ((run false store rs s).1.map (·.withHeaders corsHeaders), (run false store rs s).2) := by
  induction rs generalizing s with
  | nil => rfl
  | cons x rs ih =>
    obtain ⟨first, others⟩ := List.forall_mem_cons.mp h
    rw [run_cons, run_cons, answer_shared store x.1 first, ih others, List.map_cons]

theorem forall₂_shares (as : List Http.Answer) :
    List.Forall₂ Shares (as.map (·.withHeaders corsHeaders)) as := by
  rw [List.forall₂_map_left_iff, List.forall₂_same]
  exact fun a _ => ⟨rfl, rfl, rfl⟩

/-! ## Preflights -/

theorem state_preflight (stamp : Stamp) {r : Http.Request} (h : r.method = .options) (s : σ) :
    (answer true store stamp r s).2 = s := by
  have way : route true r.method r.target = .preflight (r.target.path == path) := by
    simp only [route, h, and_self, if_true]
  rw [answer_eq, way]
  rfl

/-- Preflights can be left out of a run, or come into it. -/
theorem run_unmarked {xs : List (Bool × Stamp × Http.Request)}
    (h : ∀ x ∈ xs, x.1 = true → x.2.2.method = .options) (s : σ) :
    run true store (unmarked xs) s =
      (unmarked ((xs.map Prod.fst).zip (run true store (xs.map Prod.snd) s).1),
        (run true store (xs.map Prod.snd) s).2) := by
  induction xs generalizing s with
  | nil => rfl
  | cons x xs ih =>
    obtain ⟨first, others⟩ := List.forall_mem_cons.mp h
    obtain ⟨marked, stamp, r⟩ := x
    cases marked with
    | true =>
      have kept := state_preflight store stamp (first rfl) s
      calc run true store (unmarked ((true, stamp, r) :: xs)) s
        _ = run true store (unmarked xs) s := rfl
        _ = _ := by
            rw [ih others, List.map_cons, List.map_cons, run_cons, kept]
            rfl
    | false =>
      calc run true store (unmarked ((false, stamp, r) :: xs)) s
        _ = run true store ((stamp, r) :: unmarked xs) s := rfl
        _ = _ := by
            rw [run_cons, ih others, List.map_cons, List.map_cons, run_cons]
            rfl

end

/-- Runs of requests with and without cross-origin callers, where none is an `OPTIONS` request, go
through the same states, and their answers differ by the same two headers. Among cross-origin
callers, `OPTIONS` requests can come in anywhere and no other answer changes. -/
theorem cross_origin_adds_headers (store : Store σ) (s : σ) :
    corsHeaders.map (·.name) = ["access-control-allow-origin", "vary"] ∧
    (∀ requests : List (Stamp × Http.Request), (∀ x ∈ requests, x.2.method ≠ .options) → ∀ n,
      let shared := run true store (requests.take n) s
      let alone := run false store (requests.take n) s
      shared.2 = alone.2 ∧ List.Forall₂ Shares shared.1 alone.1) ∧
    ∀ all : List (Bool × Stamp × Http.Request),
      (∀ x ∈ all, x.1 = true → x.2.2.method = .options) →
      let whole := run true store (all.map Prod.snd) s
      run true store (unmarked all) s = (unmarked ((all.map Prod.fst).zip whole.1), whole.2) := by
  refine ⟨rfl, ?_, ?_⟩
  · intro requests plain n shared alone
    have first : ∀ x ∈ requests.take n, x.2.method ≠ .options :=
      fun x mem => plain x (List.mem_of_mem_take mem)
    simp only [shared, alone, run_shared store first]
    exact ⟨trivial, forall₂_shares _⟩
  · intro all preflights whole
    exact run_unmarked store preflights s

/-- A listing fails with its store and a recording for want of a body. Both answers are the same
with an `OPTIONS` request between them, and both have the headers more than without cross-origin
callers. -/
theorem failures_share_headers :
    let stamp : Stamp := ⟨⟨0⟩, ⟨0, 0, by decide⟩⟩
    let store : Store Unit := Store.failing .poolClosed
    let asked : Stamp × Http.Request := (stamp, ⟨.get, ⟨path, none⟩, [], .ofBytes []⟩)
    let sent : Stamp × Http.Request := (stamp, recording none [] (.ofBytes []))
    let preflight : Stamp × Http.Request :=
      (stamp, ⟨.options, ⟨path, none⟩, [⟨"origin", "https://a.example"⟩], .ofBytes []⟩)
    ∃ failed allowed refused, failed.status = .internalError ∧ refused.status = .badRequest ∧
      run true store [asked, preflight, sent] () = ([failed, allowed, refused], ()) ∧
      run true store [asked, sent] () = ([failed, refused], ()) ∧
      List.Forall₂ Shares [failed, refused] (run false store [asked, sent] ()).1 := by
  intro stamp store asked sent preflight
  obtain ⟨-, shared, preflights⟩ := cross_origin_adds_headers store ()
  have plain : ∀ x ∈ [asked, sent], x.2.method ≠ .options := by
    simp [asked, sent, recording]
  have marked : ∀ x ∈ [(false, asked), (true, preflight), (false, sent)],
      x.1 = true → x.2.2.method = .options := by
    simp [preflight]
  exact ⟨_, _, _, rfl, rfl, rfl, preflights _ marked, (shared _ plain 2).2⟩

end MetricLedger.Api
