import MetricLedger.Proofs.Metric.Sharing

/-!
# The order of a shared ledger

A record gets its time before its place in the ledger, so a recording that begins later may be over
earlier. Where that never happens listings are oldest first; where it does, the two records stand in
the ledger the wrong way round.
-/

namespace MetricLedger

def OldestFirst (rs : List Record) : Prop := rs.Pairwise (·.createdAt ≤ ·.createdAt)

instance (rs : List Record) : Decidable (OldestFirst rs) :=
  inferInstanceAs (Decidable (rs.Pairwise (·.createdAt ≤ ·.createdAt)))

namespace Sharing

/-- A record was marked after another one, and stored before it. -/
def Overtakes (history : List Event) (r overtaken : Record) : Prop :=
  ∃ i j, [⟨j, .marks overtaken⟩, ⟨i, .marks r⟩, ⟨i, .stores r⟩, ⟨j, .stores overtaken⟩].Sublist
    history

/-! ## Earlier and later -/

/-- Of two members of a list one comes first. -/
theorem pair_sublist {xs : List α} {x y : α} (hx : x ∈ xs) (hy : y ∈ xs) :
    x = y ∨ [x, y].Sublist xs ∨ [y, x].Sublist xs := by
  induction xs with
  | nil => cases hx
  | cons z xs ih =>
    cases hx with
    | head =>
      cases hy with
      | head => exact .inl rfl
      | tail _ later => exact .inr (.inl (.cons_cons _ (List.singleton_sublist.mpr later)))
    | tail _ hx =>
      cases hy with
      | head => exact .inr (.inr (.cons_cons _ (List.singleton_sublist.mpr hx)))
      | tail _ hy =>
        rcases ih hx hy with same | first | second
        · exact .inl same
        · exact .inr (.inl (first.cons _))
        · exact .inr (.inr (second.cons _))

theorem split_of_pair {xs : List α} {x y : α} (h : [x, y].Sublist xs) :
    ∃ before between behind, xs = before ++ x :: (between ++ y :: behind) := by
  obtain ⟨front, back, rfl, hx, rest⟩ := List.cons_sublist_iff.mp h
  obtain ⟨before, between, rfl⟩ := List.append_of_mem hx
  obtain ⟨more, behind, rfl⟩ := List.append_of_mem (List.singleton_sublist.mp rest)
  exact ⟨before, between ++ more, behind, by simp⟩

/-! ## Times -/

section
variable {stamps : Nat → Stamp} {l : Ledger} {calls : List Call} {s : Sharing}

/-- Records are marked with times that do not go back. -/
theorem Consistent.marked_in_time (h : Consistent stamps l calls s)
    (clock : ∀ j k, j ≤ k → k < calls.countP Call.isCreate → (stamps j).time ≤ (stamps k).time) :
    OldestFirst (markedIn s.history) := by
  have times : ((markedIn s.history).map Record.stamp).Pairwise
      (fun a b : Stamp => a.time ≤ b.time) := by
    rw [h.stamps, List.pairwise_map]
    refine List.pairwise_lt_range.imp_of_mem fun _ mem less => clock _ _ (Nat.le_of_lt less) ?_
    exact Nat.lt_of_lt_of_le (List.mem_range.mp mem) h.drawn_le
  rw [List.pairwise_map] at times
  exact times

/-- Before a record is stored it is marked, by the same caller. -/
theorem Consistent.mem_marks (h : Consistent stamps l calls s)
    {past rest before behind : List Event} {i : Nat} {r : Record} (split : s.history = past ++ rest)
    (there : past = before ++ ⟨i, .stores r⟩ :: behind) : ⟨i, .marks r⟩ ∈ before := by
  have only : Deed.marks r ∈ deedsOf i before := by
    rw [there, List.append_assoc, List.cons_append] at split
    rw [h.held _ _ _ split r rfl]
    exact List.mem_singleton_self _
  obtain ⟨⟨caller, deed⟩, mem, rfl⟩ := List.mem_map.mp only
  obtain ⟨early, own⟩ := List.mem_filter.mp mem
  obtain rfl : caller = i := by simpa using own
  exact early

/-- The times of new records are those of stamps. -/
theorem Consistent.stamped (h : Consistent stamps l calls s) {past rest : List Event}
    (split : s.history = past ++ rest) {r : Record} (mem : r ∈ storedIn past) :
    ∃ k < calls.countP Call.isCreate, r.createdAt = (stamps k).time := by
  have held : r ∈ s.callers.filterMap Caller.record? := by
    refine (made_sublist_record _).subset (h.stored.mem_iff.mp ?_)
    rw [split, storedIn_append]
    exact List.mem_append_left _ mem
  obtain ⟨k, less, stamp⟩ := h.exists_stamp held
  exact ⟨k, less, congrArg Stamp.time stamp⟩

/-- Of two records stored one after the other the first is no younger, or it has overtaken the
second. -/
theorem Consistent.in_time_or_overtakes (h : Consistent stamps l calls s)
    (clock : ∀ j k, j ≤ k → k < calls.countP Call.isCreate → (stamps j).time ≤ (stamps k).time)
    {past rest : List Event} (split : s.history = past ++ rest) {i j : Nat} {r r' : Record}
    (pair : [⟨i, .stores r⟩, ⟨j, .stores r'⟩].Sublist past) :
    r.createdAt ≤ r'.createdAt ∨ Overtakes past r r' := by
  have ordered (marks : [⟨i, .marks r⟩, ⟨j, .marks r'⟩].Sublist past) :
      r.createdAt ≤ r'.createdAt := by
    have sub : [r, r'].Sublist (markedIn s.history) := by
      rw [split]
      exact (marks.trans (List.sublist_append_left _ _)).filterMap fun e : Event => e.deed.marked?
    exact List.pairwise_iff_forall_sublist.mp (h.marked_in_time clock) sub
  obtain ⟨before, between, behind, there⟩ := split_of_pair pair
  have later : past = (before ++ ⟨i, .stores r⟩ :: between) ++ ⟨j, .stores r'⟩ :: behind := by
    rw [there, List.append_assoc, List.cons_append]
  have first : ⟨i, .marks r⟩ ∈ before := h.mem_marks split there
  have second : ⟨j, .marks r'⟩ ∈ before ++ ⟨i, .stores r⟩ :: between := h.mem_marks split later
  rw [there] at ordered ⊢
  rcases List.mem_append.mp second with early | late
  · rcases pair_sublist first early with same | marks | marks
    · -- one step marks one record
      cases same
      exact .inl (Instant.le_refl _)
    · exact .inl (ordered (marks.trans (List.sublist_append_left _ _)))
    · refine .inr ⟨i, j, marks.append (.cons_cons _ (List.singleton_sublist.mpr ?_))⟩
      exact List.mem_append_right _ (List.mem_cons_self ..)
  · have between : ⟨j, .marks r'⟩ ∈ between := by
      rcases List.mem_cons.mp late with same | between
      · cases same
      · exact between
    refine .inl (ordered ((List.singleton_sublist.mpr first).append ?_))
    exact List.singleton_sublist.mpr (.tail _ (List.mem_append_left _ between))

/-- What is kept of the ledger of a moment is oldest first where those who overtook are no younger
than those they overtook. -/
theorem Consistent.oldestFirst_iff (h : Consistent stamps l calls s)
    (clock : ∀ j k, j ≤ k → k < calls.countP Call.isCreate → (stamps j).time ≤ (stamps k).time)
    (former : OldestFirst l.records)
    (since : ∀ r ∈ l.records, ∀ k < calls.countP Call.isCreate, r.createdAt ≤ (stamps k).time)
    {past rest : List Event} (split : s.history = past ++ rest) (keep : Record → Bool) :
    OldestFirst ((l.records ++ storedIn past).filter keep) ↔
      ∀ r o, Overtakes past r o → keep r = true → keep o = true → r.createdAt ≤ o.createdAt := by
  constructor
  · intro sorted r o overtakes kept kept'
    obtain ⟨i, j, steps⟩ := overtakes
    have stored : [r, o].Sublist (storedIn past) := steps.filterMap fun e : Event => e.deed.stored?
    have listed := (stored.trans (List.sublist_append_right l.records _)).filter keep
    rw [List.filter_cons_of_pos kept, List.filter_cons_of_pos kept'] at listed
    exact List.pairwise_iff_forall_sublist.mp sorted listed
  · intro overtakers
    rw [OldestFirst, List.filter_append, List.pairwise_append]
    refine ⟨former.sublist List.filter_sublist, ?_, ?_⟩
    · rw [List.pairwise_filter, storedIn, List.pairwise_filterMap, List.pairwise_iff_forall_sublist]
      intro e e' pair r stores r' stores' kept kept'
      obtain ⟨i, d⟩ := e
      obtain ⟨j, d'⟩ := e'
      cases d with
      | stores x =>
        cases d' with
        | stores x' =>
          cases stores
          cases stores'
          rcases h.in_time_or_overtakes clock split pair with fine | overtakes
          · exact fine
          · exact overtakers r r' overtakes kept kept'
        | marks | finds | lists => cases stores'
      | marks | finds | lists => cases stores
    · intro r old r' new
      obtain ⟨k, most, time⟩ := h.stamped split (List.mem_of_mem_filter new)
      rw [time]
      exact since r (List.mem_of_mem_filter old) k most

end

/-- With a clock that does not go back, from a ledger that is oldest first and not ahead of the
clock: a listing of all records, or of those of one name, is oldest first if and only if no record
of it that overtook another one of it is younger. -/
theorem oldest_first_iff (stamps : Nat → Stamp) (l : Ledger) (calls : List Call)
    (schedule : List Nat)
    (clock : ∀ j k, j ≤ k → k < calls.countP Call.isCreate → (stamps j).time ≤ (stamps k).time)
    (former : OldestFirst l.records)
    (since : ∀ r ∈ l.records, ∀ k < calls.countP Call.isCreate, r.createdAt ≤ (stamps k).time) :
    let s := (start l calls).run stamps schedule
    ∀ before e behind, s.history = before ++ e :: behind →
      (∀ rs, e.deed = .lists rs →
        (OldestFirst rs ↔ ∀ r o, Overtakes before r o → r.createdAt ≤ o.createdAt)) ∧
      ∀ name rs, e.deed = .finds name rs →
        (OldestFirst rs ↔ ∀ r o, Overtakes before r o → r.name = name → o.name = name →
          r.createdAt ≤ o.createdAt) := by
  intro s before e behind split
  have h : Consistent stamps l calls s := (consistent_start stamps l calls).run schedule
  have shown := h.shown before e behind split
  have kept := h.oldestFirst_iff clock former since split
  refine ⟨fun rs deed => ?_, fun name rs deed => ?_⟩
  · rw [deed] at shown
    rw [show rs = _ from shown]
    simpa using kept fun _ => true
  · rw [deed] at shown
    rw [show rs = _ from shown]
    simpa using kept (·.name == name)

theorem ticks_in_time (j k : Nat) (h : j ≤ k) : (ticks j).time ≤ (ticks k).time := by
  have later : min (j : Int) 4000000000 ≤ min (k : Int) 4000000000 := by omega
  rcases Int.lt_or_eq_of_le later with less | same
  · exact .inl less
  · exact .inr ⟨same, Nat.le_refl 0⟩

def idle : Record := .ofMeasurement ⟨"cpu_usage", "gauge", .ofNat 0⟩ (ticks 0)

/-- The records of two recordings of which the second has overtaken the first. -/
def overtaken : List Record :=
  [.ofMeasurement ⟨"cpu_usage", "gauge", .ofNat 2⟩ (ticks 1),
    .ofMeasurement ⟨"cpu_usage", "gauge", .ofNat 1⟩ (ticks 0)]

theorem overtaken_out_of_order :
    ⟨2, .lists (idle :: overtaken)⟩ ∈
        ((start ⟨[idle]⟩ fourCalls).run ticks overtaking).history ∧
      ¬ OldestFirst (idle :: overtaken) := by
  refine ⟨by decide, fun sorted => ?_⟩
  obtain ⟨listed, -⟩ := oldest_first_iff ticks ⟨[idle]⟩ fourCalls overtaking
    (fun j k less _ => ticks_in_time j k less) (List.pairwise_singleton _ _)
    (fun r mem k _ => by rw [List.mem_singleton.mp mem]; exact ticks_in_time 0 k (Nat.zero_le k))
    [⟨0, .marks overtaken[1]⟩, ⟨1, .marks overtaken[0]⟩, ⟨1, .stores overtaken[0]⟩,
      ⟨0, .stores overtaken[1]⟩]
    ⟨2, .lists (idle :: overtaken)⟩ [⟨3, .finds "cpu_usage" (idle :: overtaken)⟩] (by decide)
  have younger : ¬ overtaken[0].createdAt ≤ overtaken[1].createdAt := by decide
  exact younger ((listed _ rfl).mp sorted _ _ ⟨1, 0, List.Sublist.refl _⟩)

/-- A clock that never goes back does not keep listings oldest first. -/
theorem overtaker_listed_first :
    (∀ j k, j ≤ k → (ticks j).time ≤ (ticks k).time) ∧
      ⟨2, .lists overtaken⟩ ∈ ((start .empty fourCalls).run ticks overtaking).history ∧
      ⟨3, .finds "cpu_usage" overtaken⟩ ∈ ((start .empty fourCalls).run ticks overtaking).history ∧
      ¬ OldestFirst overtaken :=
  ⟨ticks_in_time, by decide, by decide, by decide⟩

end Sharing

end MetricLedger
