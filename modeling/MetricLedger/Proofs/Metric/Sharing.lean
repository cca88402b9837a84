import Mathlib.Data.List.Perm.Basic
import MetricLedger.Metric.Sharing

/-!
# What sharing keeps

Whatever the order of the steps, the ledger holds its former records and after them the record of
every recording that is over, each of them once and as its caller was told; and what is listed is
the ledger as it stood at that moment.
-/

namespace MetricLedger

/-! ## Callers in a list -/

/-- A caller that shows something new brings it to what the callers show. -/
theorem filterMap_set_perm {f : α → Option β} {xs : List α} {i : Nat} {x y : α}
    (here : xs[i]? = some x) (before : f x = none) :
    ((xs.set i y).filterMap f).Perm (xs.filterMap f ++ (f y).toList) := by
  induction xs generalizing i with
  | nil => cases here
  | cons z xs ih =>
    cases i with
    | zero =>
      obtain ⟨rfl⟩ := here
      rw [List.set_cons_zero, List.filterMap_cons_none before, ← List.singleton_append,
        List.filterMap_append]
      refine List.perm_append_comm.trans ?_
      cases after : f y <;> simp [after]
    | succ i =>
      rw [List.set_cons_succ, List.filterMap_cons, List.filterMap_cons]
      split
      · exact ih here
      · exact (ih here).cons _

theorem filterMap_set {f : α → Option β} {xs : List α} {i : Nat} {x y : α}
    (here : xs[i]? = some x) (same : f y = f x) :
    (xs.set i y).filterMap f = xs.filterMap f := by
  induction xs generalizing i with
  | nil => rfl
  | cons z xs ih =>
    cases i with
    | zero =>
      obtain ⟨rfl⟩ := here
      rw [List.set_cons_zero, List.filterMap_cons, List.filterMap_cons, same]
    | succ i => rw [List.set_cons_succ, List.filterMap_cons, List.filterMap_cons, ih here]

theorem map_set {f : α → β} {xs : List α} {i : Nat} {x y : α} (here : xs[i]? = some x)
    (same : f y = f x) : (xs.set i y).map f = xs.map f := by
  simpa using filterMap_set (f := fun z => some (f z)) here (congrArg some same)

/-! ## One step -/

/-- What a step of a call does, whatever the call. -/
structure Caller.Advances (stamp : Stamp) (l : Ledger) (c : Caller) (d : Deed) (c' : Caller) :
    Prop where
  call : c'.call = c.call
  deeds : c'.deeds = c.deeds ++ [d]
  left : c.left = c'.left + 1
  shows : d.Shows l.records
  held : ∀ r, d = .stores r → c.deeds = [.marks r]
  made : c.made? = none ∧ c'.made? = d.stored?
  record : (d.marked? = none ∧ d.draws = 0 ∧ c'.record? = c.record?) ∨
    ∃ r, d.marked? = some r ∧ d.draws = 1 ∧ r.stamp = stamp ∧ c.record? = none ∧
      c'.record? = some r

theorem Caller.advances_of_next? {stamp : Stamp} {l : Ledger} {c c' : Caller} {d : Deed}
    (h : c.next? stamp l = some (d, c')) : c.Advances stamp l d c' := by
  cases c with
  | create m =>
    cases h
    exact ⟨rfl, rfl, rfl, trivial, by simp, ⟨rfl, rfl⟩, .inr ⟨_, rfl, rfl, rfl, rfl, rfl⟩⟩
  | holding r =>
    cases h
    exact ⟨rfl, rfl, rfl, trivial, fun r same => by cases same; rfl, ⟨rfl, rfl⟩,
      .inl ⟨rfl, rfl, rfl⟩⟩
  | named name => cases h; exact ⟨rfl, rfl, rfl, rfl, by simp, ⟨rfl, rfl⟩, .inl ⟨rfl, rfl, rfl⟩⟩
  | all => cases h; exact ⟨rfl, rfl, rfl, rfl, by simp, ⟨rfl, rfl⟩, .inl ⟨rfl, rfl, rfl⟩⟩
  | created r | found name rs | listed rs => cases h

theorem Caller.next?_eq_none_iff {stamp : Stamp} {l : Ledger} {c : Caller} :
    c.next? stamp l = none ↔ c.left = 0 := by
  cases c <;> simp [next?, left]

namespace Sharing

/-- A step leaves everything as it is, if its caller is finished or is none, or it takes its caller
one step on. -/
theorem step_cases (stamps : Nat → Stamp) (s : Sharing) (i : Nat) :
    (s.step stamps i = s ∧ ∀ c, s.callers[i]? = some c → c.left = 0) ∨
    ∃ c d c', s.callers[i]? = some c ∧ c.Advances (stamps s.drawn) s.ledger d c' ∧
      s.step stamps i =
        ⟨d.apply s.ledger, s.callers.set i c', s.drawn + d.draws, s.history ++ [⟨i, d⟩]⟩ := by
  cases here : s.callers[i]? with
  | none =>
    refine .inl ⟨?_, by simp⟩
    rw [step, here, Option.bind_none]
  | some c =>
    cases next : c.next? (stamps s.drawn) s.ledger with
    | none =>
      refine .inl ⟨?_, fun c' found => ?_⟩
      · rw [step, here, Option.bind_some, next]
      · cases found
        exact Caller.next?_eq_none_iff.mp next
    | some went =>
      exact .inr ⟨c, went.1, went.2, rfl, Caller.advances_of_next? next, step_of_next? here next⟩

/-! ## The history -/

/-- The records marked, in their order. -/
def markedIn (history : List Event) : List Record := history.filterMap (·.deed.marked?)

/-- The records appended, in their order. -/
def storedIn (history : List Event) : List Record := history.filterMap (·.deed.stored?)

/-- What one caller has done. -/
def deedsOf (i : Nat) (history : List Event) : List Deed :=
  (history.filter (·.caller = i)).map (·.deed)

theorem markedIn_append (h k : List Event) : markedIn (h ++ k) = markedIn h ++ markedIn k :=
  List.filterMap_append

theorem storedIn_append (h k : List Event) : storedIn (h ++ k) = storedIn h ++ storedIn k :=
  List.filterMap_append

theorem markedIn_singleton (i : Nat) (d : Deed) : markedIn [⟨i, d⟩] = d.marked?.toList := by
  cases d <;> rfl

theorem storedIn_singleton (i : Nat) (d : Deed) : storedIn [⟨i, d⟩] = d.stored?.toList := by
  cases d <;> rfl

theorem mem_storedIn {h : List Event} {e : Event} {r : Record} (mem : e ∈ h)
    (deed : e.deed = .stores r) : r ∈ storedIn h :=
  List.mem_filterMap.mpr ⟨e, mem, by rw [deed]; rfl⟩

theorem deedsOf_self (i : Nat) (h : List Event) (d : Deed) :
    deedsOf i (h ++ [⟨i, d⟩]) = deedsOf i h ++ [d] := by
  simp [deedsOf]

theorem deedsOf_other {i j : Nat} (differs : j ≠ i) (h : List Event) (d : Deed) :
    deedsOf i (h ++ [⟨j, d⟩]) = deedsOf i h := by
  simp [deedsOf, differs]

/-- What holds at every place of a history and at the end of it holds at every place of the history
that goes on there. -/
theorem forall_place_append {p : List Event → Event → Prop} {h : List Event} {last : Event}
    (old : ∀ before e behind, h = before ++ e :: behind → p before e) (new : p h last) :
    ∀ before e behind, h ++ [last] = before ++ e :: behind → p before e := by
  intro before e behind split
  rcases List.eq_nil_or_concat behind with rfl | ⟨rest, other, rfl⟩
  · obtain ⟨rfl, same⟩ := List.append_inj' split rfl
    cases same
    exact new
  · have longer : h ++ [last] = (before ++ e :: rest) ++ [other] := by simpa using split
    exact old before e rest (List.append_inj' longer rfl).1

/-! ## The invariant -/

/-- How a sharing stands to the ledger and the calls that it began with. -/
structure Consistent (stamps : Nat → Stamp) (l : Ledger) (calls : List Call) (s : Sharing) :
    Prop where
  calls : s.callers.map Caller.call = calls
  deeds : ∀ i c, s.callers[i]? = some c → deedsOf i s.history = c.deeds
  stamps : (markedIn s.history).map Record.stamp = (List.range s.drawn).map stamps
  marked : (markedIn s.history).Perm (s.callers.filterMap Caller.record?)
  stored : (storedIn s.history).Perm (s.callers.filterMap Caller.made?)
  records : s.ledger.records = l.records ++ storedIn s.history
  held : ∀ before e behind, s.history = before ++ e :: behind →
    ∀ r, e.deed = .stores r → deedsOf e.caller before = [.marks r]
  shown : ∀ before e behind, s.history = before ++ e :: behind →
    e.deed.Shows (l.records ++ storedIn before)

theorem consistent_start (stamps : Nat → Stamp) (l : Ledger) (calls : List Call) :
    Consistent stamps l calls (start l calls) := by
  have record (c : Call) : c.begin.record? = none := by cases c <;> rfl
  have made (c : Call) : c.begin.made? = none := by cases c <;> rfl
  constructor
  case calls => simp [start, Function.comp_def]
  case deeds =>
    intro i c here
    obtain ⟨call, -, rfl⟩ := List.mem_map.mp (List.mem_of_getElem? here)
    cases call <;> rfl
  case stamps => rfl
  case marked => simp [start, markedIn, record]
  case stored => simp [start, storedIn, made]
  case records => exact (List.append_nil _).symm
  case held =>
    intro before e behind split
    simp [start] at split
  case shown =>
    intro before e behind split
    simp [start] at split

theorem Consistent.step {stamps : Nat → Stamp} {l : Ledger} {calls : List Call} {s : Sharing}
    (h : Consistent stamps l calls s) (i : Nat) :
    Consistent stamps l calls (s.step stamps i) := by
  rcases step_cases stamps s i with ⟨same, -⟩ | ⟨c, d, c', here, advances, eq⟩
  · rwa [same]
  rw [eq]
  constructor
  case calls =>
    rw [map_set here advances.call]
    exact h.calls
  case deeds =>
    intro j other found
    by_cases self : i = j
    · subst self
      obtain rfl : c' = other := by
        simpa [List.getElem?_set_self (List.getElem?_eq_some_iff.mp here).1] using found
      rw [deedsOf_self, h.deeds i c here, advances.deeds]
    · rw [List.getElem?_set_ne self] at found
      rw [deedsOf_other self, h.deeds j other found]
  case stamps =>
    rw [markedIn_append, markedIn_singleton, List.map_append, h.stamps]
    rcases advances.record with ⟨none, draws, -⟩ | ⟨r, some, draws, stamp, -⟩
    · simp [none, draws]
    · simp [some, draws, stamp, List.range_succ]
  case marked =>
    rw [markedIn_append, markedIn_singleton]
    rcases advances.record with ⟨none, -, same⟩ | ⟨r, some, -, -, before, after⟩
    · rw [none, Option.toList_none, List.append_nil, filterMap_set here same]
      exact h.marked
    · rw [some, ← after]
      exact (h.marked.append_right _).trans (filterMap_set_perm here before).symm
  case stored =>
    rw [storedIn_append, storedIn_singleton, ← advances.made.2]
    exact (h.stored.append_right _).trans (filterMap_set_perm here advances.made.1).symm
  case records =>
    rw [Deed.records_apply, h.records, storedIn_append, storedIn_singleton, List.append_assoc]
  case held =>
    refine forall_place_append h.held fun r stores => ?_
    -- a caller that stores a record has done nothing but mark it
    rw [h.deeds i c here, advances.held r stores]
  case shown =>
    refine forall_place_append h.shown ?_
    rw [← h.records]
    exact advances.shows

theorem Consistent.run {stamps : Nat → Stamp} {l : Ledger} {calls : List Call} {s : Sharing}
    (h : Consistent stamps l calls s) (schedule : List Nat) :
    Consistent stamps l calls (s.run stamps schedule) := by
  induction schedule generalizing s with
  | nil => exact h
  | cons i schedule ih => exact ih (h.step i)

/-! ## Turns -/

/-- A turn of a caller takes one of its steps, and none of the others'. -/
theorem left_step (stamps : Nat → Stamp) (s : Sharing) (i j : Nat) {c : Caller}
    (here : s.callers[j]? = some c) :
    ∃ c', (s.step stamps i).callers[j]? = some c' ∧
      c'.left = c.left - if i = j then 1 else 0 := by
  rcases step_cases stamps s i with ⟨same, idle⟩ | ⟨old, d, new, there, advances, eq⟩
  · refine ⟨c, by rw [same, here], ?_⟩
    split
    · rename_i own
      rw [own] at idle
      rw [idle c here]
    · rfl
  · rw [eq]
    by_cases own : i = j
    · subst own
      obtain rfl : old = c := Option.some_inj.mp (there.symm.trans here)
      refine ⟨new, List.getElem?_set_self (List.getElem?_eq_some_iff.mp here).1, ?_⟩
      rw [if_pos rfl, advances.left, Nat.add_sub_cancel]
    · exact ⟨c, by rw [List.getElem?_set_ne own, here], by rw [if_neg own, Nat.sub_zero]⟩

/-- A caller has as many steps left as it had turns too few. -/
theorem left_run (stamps : Nat → Stamp) (s : Sharing) (schedule : List Nat) (j : Nat) {c : Caller}
    (here : s.callers[j]? = some c) :
    ∃ c', (s.run stamps schedule).callers[j]? = some c' ∧ c'.left = c.left - schedule.count j := by
  induction schedule generalizing s c with
  | nil => exact ⟨c, here, rfl⟩
  | cons i schedule ih =>
    obtain ⟨next, there, first⟩ := left_step stamps s i j here
    obtain ⟨last, found, rest⟩ := ih (s.step stamps i) there
    refine ⟨last, found, ?_⟩
    rw [rest, first, List.count_cons, Nat.sub_sub, Nat.add_comm]
    simp only [beq_iff_eq]

/-! ## Stamps -/

theorem made_sublist_record (callers : List Caller) :
    (callers.filterMap Caller.made?).Sublist (callers.filterMap Caller.record?) := by
  induction callers with
  | nil => exact .slnil
  | cons c callers ih =>
    cases c with
    | created r => exact ih.cons_cons r
    | holding r => exact ih.cons r
    | create | named | found | all | listed => exact ih

theorem length_record_le (callers : List Caller) :
    (callers.filterMap Caller.record?).length ≤ (callers.map Caller.call).countP Call.isCreate := by
  induction callers with
  | nil => exact Nat.le_refl _
  | cons c callers ih =>
    rw [List.map_cons, List.countP_cons]
    cases c with
    | created r | holding r => exact Nat.succ_le_succ ih
    | create => exact Nat.le_succ_of_le ih
    | named | found | all | listed => exact ih

section
variable {stamps : Nat → Stamp} {l : Ledger} {calls : List Call} {s : Sharing}

/-- There are no more stamps used up than there are recordings. -/
theorem Consistent.drawn_le (h : Consistent stamps l calls s) :
    s.drawn ≤ calls.countP Call.isCreate := by
  have length := congrArg List.length h.stamps
  rw [List.length_map, h.marked.length_eq, List.length_map, List.length_range] at length
  rw [← length, ← h.calls]
  exact length_record_le s.callers

/-- What a caller holds was marked with one of the stamps. -/
theorem Consistent.exists_stamp (h : Consistent stamps l calls s) {r : Record}
    (held : r ∈ s.callers.filterMap Caller.record?) :
    ∃ k < calls.countP Call.isCreate, r.stamp = stamps k := by
  have drawn : r.stamp ∈ (List.range s.drawn).map stamps := by
    rw [← h.stamps]
    exact List.mem_map_of_mem (h.marked.mem_iff.mpr held)
  obtain ⟨k, less, same⟩ := List.mem_map.mp drawn
  exact ⟨k, Nat.lt_of_lt_of_le (List.mem_range.mp less) h.drawn_le, same.symm⟩

/-- Records with stamps that differ have identifiers that differ. -/
theorem Consistent.nodup_ids (h : Consistent stamps l calls s)
    (fresh : ∀ j k, j < k → k < calls.countP Call.isCreate → (stamps j).id ≠ (stamps k).id) :
    ((storedIn s.history).map (·.id)).Nodup := by
  have drawn : ((markedIn s.history).map (·.id)).Nodup := by
    have ids : (markedIn s.history).map (·.id) = (List.range s.drawn).map (stamps · |>.id) := by
      have same := congrArg (List.map Stamp.id) h.stamps
      rwa [List.map_map, List.map_map] at same
    rw [ids, List.Nodup, List.pairwise_map]
    refine List.pairwise_lt_range.imp_of_mem fun _ mem less => fresh _ _ less ?_
    exact Nat.lt_of_lt_of_le (List.mem_range.mp mem) h.drawn_le
  have held := (h.marked.map (·.id)).nodup_iff.mp drawn
  have made := ((made_sublist_record s.callers).map (·.id)).nodup held
  exact (h.stored.map (·.id)).nodup_iff.mpr made

/-- A recording that is over is answered with its record, which is in the ledger. -/
theorem Consistent.created (h : Consistent stamps l calls s) {i : Nat} {m : Measurement}
    (call : calls[i]? = some (.create m)) (ended : ∀ c ∈ s.callers, c.left = 0) :
    ∃ r ∈ storedIn s.history, s.callers[i]? = some (.created r) ∧
      ∃ k, r = .ofMeasurement m (stamps k) := by
  rw [← h.calls, List.getElem?_map] at call
  obtain ⟨c, here, same⟩ := Option.map_eq_some_iff.mp call
  have finished := ended c (List.mem_of_getElem? here)
  cases c with
  | created r =>
    cases same
    have mem (f : Caller → Option Record) (shows : f (.created r) = some r) :
        r ∈ s.callers.filterMap f :=
      List.mem_filterMap.mpr ⟨_, List.mem_of_getElem? here, shows⟩
    obtain ⟨k, -, stamp⟩ := h.exists_stamp (mem _ rfl)
    exact ⟨r, h.stored.mem_iff.mpr (mem _ rfl), here, k, by rw [← stamp]; rfl⟩
  | create | holding => cases finished
  | named | found | all | listed => cases same

/-! ## What is listed -/

/-- A listing shows a part of the ledger from its beginning: no less than the recordings that were
over hold, no less than an earlier listing, and no more than a later one. -/
theorem Consistent.snapshot (h : Consistent stamps l calls s) {before behind : List Event}
    {e : Event} (split : s.history = before ++ e :: behind) :
    ∃ rs, e.deed.Shows rs ∧ rs <+: s.ledger.records ∧
      (∀ d ∈ before, ∀ r, d.deed = .stores r → r ∈ rs) ∧
      (∀ d ∈ before, ∀ earlier, d.deed = .lists earlier → earlier <+: rs) ∧
      ∀ d ∈ behind, ∀ later, d.deed = .lists later → rs <+: later := by
  refine ⟨l.records ++ storedIn before, h.shown _ _ _ split, ?_, ?_, ?_, ?_⟩
  · rw [h.records, split, storedIn_append, ← List.append_assoc]
    exact List.prefix_append _ _
  · intro d mem r stores
    exact List.mem_append_right _ (mem_storedIn mem stores)
  · intro d mem earlier lists
    obtain ⟨first, rest, rfl⟩ := List.append_of_mem mem
    have shown := h.shown first d (rest ++ e :: behind) (by rw [split]; simp)
    rw [lists] at shown
    rw [show earlier = _ from shown, storedIn_append, ← List.append_assoc]
    exact List.prefix_append _ _
  · intro d mem later lists
    obtain ⟨rest, last, rfl⟩ := List.append_of_mem mem
    have shown := h.shown (before ++ e :: rest) d last (by rw [split]; simp)
    rw [lists] at shown
    rw [show later = _ from shown, storedIn_append, ← List.append_assoc]
    exact List.prefix_append _ _

end

/-- Callers that share a ledger, in whatever order their steps come: each is told what it has done,
and is finished after two turns. The ledger holds its former records and after them, each once and
under an identifier of its own, those that callers were told to have made; when all are finished
there is one for every recording. Every listing shows the ledger as it stood at that step. -/
theorem shared_ledger (stamps : Nat → Stamp) (l : Ledger) (calls : List Call) (schedule : List Nat)
    (fresh : ∀ j k, j < k → k < calls.countP Call.isCreate → (stamps j).id ≠ (stamps k).id) :
    let s := (start l calls).run stamps schedule
    s.callers.map Caller.call = calls ∧
      (∀ i c, s.callers[i]? = some c → deedsOf i s.history = c.deeds) ∧
      ((∀ i < calls.length, 2 ≤ schedule.count i) → ∀ c ∈ s.callers, c.left = 0) ∧
      (∃ made, s.ledger.records = l.records ++ made ∧ (made.map (·.id)).Nodup ∧
        made.Perm (s.callers.filterMap Caller.made?) ∧
        ((∀ c ∈ s.callers, c.left = 0) → ∀ (i : Nat) m, calls[i]? = some (Call.create m) →
          ∃ r ∈ made, s.callers[i]? = some (Caller.created r) ∧
            ∃ k, r = .ofMeasurement m (stamps k))) ∧
      ∀ before e behind, s.history = before ++ e :: behind →
        ∃ rs, e.deed.Shows rs ∧ rs <+: s.ledger.records ∧
          (∀ d ∈ before, ∀ r, d.deed = .stores r → r ∈ rs) ∧
          (∀ d ∈ before, ∀ earlier, d.deed = .lists earlier → earlier <+: rs) ∧
          ∀ d ∈ behind, ∀ later, d.deed = .lists later → rs <+: later := by
  intro s
  have h : Consistent stamps l calls s := (consistent_start stamps l calls).run schedule
  refine ⟨h.calls, h.deeds, ?_,
    ⟨storedIn s.history, h.records, h.nodup_ids fresh, h.stored, ?_⟩, ?_⟩
  · intro turns c mem
    obtain ⟨i, here⟩ := List.mem_iff_getElem?.mp mem
    have some_call : calls[i]? = some c.call := by rw [← h.calls, List.getElem?_map, here]; rfl
    have begun : (start l calls).callers[i]? = some c.call.begin := by
      simp [start, some_call]
    obtain ⟨last, found, left⟩ := left_run stamps _ schedule i begun
    rw [Option.some_inj.mp (here.symm.trans found), left]
    have enough := turns i (List.getElem?_eq_some_iff.mp some_call).1
    have most := Caller.left_begin_le c.call
    omega
  · intro ended i m call
    exact h.created call ended
  · intro before e behind split
    exact h.snapshot split

/-- Stamps that count on from nought, one each second, until the clock stands still. -/
def ticks (k : Nat) : Stamp := ⟨⟨BitVec.ofNat 128 k⟩, ⟨min k 4000000000, 0, by omega⟩⟩

/-- Two recordings and two listings. -/
def fourCalls : List Call :=
  [.create ⟨"cpu_usage", "gauge", .ofNat 1⟩, .create ⟨"cpu_usage", "gauge", .ofNat 2⟩, .all,
    .named "cpu_usage"]

/-- The second recording begins after the first and is over before it; then the ledger is listed. -/
def overtaking : List Nat := [0, 1, 1, 0, 2, 3]

theorem overtaking_shared :
    let s := (start .empty fourCalls).run ticks overtaking
    (∀ c ∈ s.callers, c.left = 0) ∧
      ∃ made, s.ledger.records = made ∧ (made.map (·.id)).Nodup ∧
        made.Perm (s.callers.filterMap Caller.made?) ∧ made.length = 2 := by
  have fresh (j k : Nat) (less : j < k) (most : k < 2) : (ticks j).id ≠ (ticks k).id := by
    obtain rfl : k = 1 := by omega
    obtain rfl : j = 0 := by omega
    decide
  obtain ⟨-, -, -, ⟨made, records, distinct, answered, -⟩, -⟩ :=
    shared_ledger ticks .empty fourCalls overtaking fresh
  refine ⟨by decide, made, records, distinct, answered, ?_⟩
  rw [answered.length_eq]
  decide

end Sharing

end MetricLedger
