import NativeLink.Scheduler.MemoryAwaitedActionDb.Properties
import NativeLink.Util.ChunkedStream

-- The paginated streams of `MemoryAwaitedActionDb`: `get_range_of_actions` over a sorted set and
-- `get_all_awaited_actions` over the operation ids, each a `ChunkedStream` whose chunk takes the
-- lock, returns everything left in its range and moves the range past the last item. Between two
-- chunks any call may change the database, so a stream runs over any sequence of its states.

namespace NativeLink.Scheduler.AwaitedActionDbImpl

open ChunkedStream

-- The panic of `BTreeMap::range`, and of `BTreeSet::range` through it, on a range it refuses.
def rangePanic {α : Type} [LinearOrder α] : Bound α → Bound α → String
  | .excluded a, .excluded b =>
    if a = b then "range start and end are equal and excluded in BTreeMap"
    else "range start is greater than range end in BTreeMap"
  | _, _ => "range start is greater than range end in BTreeMap"

-- The iterator of the inner `get_range_of_actions`: an entry of the set with its operation's record.
def lookupRangeEntry (s : AwaitedActionDbImpl) (sortedAwaitedAction : SortedAwaitedAction) :
    Except Error (SortedAwaitedAction × AwaitedAction) :=
  match s.getByOperationId sortedAwaitedAction.operationId with
  | some awaitedAction => .ok (sortedAwaitedAction, awaitedAction)
  | none => .error (Error.new .internal "Failed to get operation id")

-- `btree_for_state(state).range((start, end))`, in order.
def sortedRange (s : AwaitedActionDbImpl) (state : SortedAwaitedActionState)
    (startKey endKey : Bound SortedAwaitedAction) : List SortedAwaitedAction :=
  ((s.sortedActionInfoHashKeys.get state.slot).sort (· ≤ ·)).filter (Bound.contains startKey endKey)

-- The chunk of `get_range_of_actions`, on the database as its future finds it: the entries of the
-- set of `state` in the range, from the last when `desc`, each with its operation's record (the
-- subscriber's value), and the range past the last one taken. The first entry whose operation is
-- gone fails the chunk.
def rangeOfActionsChunk (state : SortedAwaitedActionState) (desc : Bool) (s : AwaitedActionDbImpl)
    (startKey endKey : Bound SortedAwaitedAction) :
    Except Stop (Option ((Bound SortedAwaitedAction × Bound SortedAwaitedAction) × List (SortedAwaitedAction × AwaitedAction))) := do
  if !Bound.rangeValid startKey endKey then throw (.panic (rangePanic startKey endKey))
  let range := s.sortedRange state startKey endKey
  let output ← (if desc then range.reverse else range).mapM fun sortedAwaitedAction =>
    (lookupRangeEntry s sortedAwaitedAction).mapError fun e =>
      Stop.error ((e.append "In AwaitedActionDb::get_range_of_actions").append "In AwaitedActionDb::get_range_of_actions")
  match output.getLast? with
  | none => pure none
  | some (last, _) => pure (some (if desc then (startKey, .excluded last) else (.excluded last, endKey), output))

-- The chunk of `get_all_awaited_actions`: the operations in the range of ids, in order, and the
-- range past the last of them.
def allAwaitedActionsChunk (s : AwaitedActionDbImpl) (startKey endKey : Bound OperationId) :
    Except Stop (Option ((Bound OperationId × Bound OperationId) × List (OperationId × AwaitedAction))) := do
  if !Bound.rangeValid startKey endKey then throw (.panic (rangePanic startKey endKey))
  let output := ((s.operationIdToAwaitedAction.keys.toFinset.sort (· ≤ ·)).filter (Bound.contains startKey endKey)).filterMap
    fun operationId => (s.operationIdToAwaitedAction.lookup operationId).map (operationId, ·)
  match output.getLast? with
  | none => pure none
  | some (last, _) => pure (some ((.excluded last, endKey), output))

/-! ## Entries with what is found for them -/

section Found

variable {α β : Type} (f : α → Option β)

-- The elements of `l` each with what `f` finds for it, where it finds something.
def pairFound (l : List α) : List (α × β) :=
  l.filterMap fun x => (f x).map (x, ·)

variable {f} {l : List α}

theorem map_fst_pairFound_sublist : ∀ {l : List α}, ((pairFound f l).map Prod.fst).Sublist l
  | [] => List.Sublist.slnil
  | x :: l => by
    cases hx : f x with
    | none => simpa [pairFound, hx] using (map_fst_pairFound_sublist (l := l)).cons x
    | some b => simpa [pairFound, hx] using (map_fst_pairFound_sublist (l := l)).cons_cons x

theorem map_fst_pairFound (h : ∀ x ∈ l, (f x).isSome) : (pairFound f l).map Prod.fst = l := by
  induction l with
  | nil => rfl
  | cons x l ih =>
    obtain ⟨b, hb⟩ := Option.isSome_iff_exists.mp (h x (List.mem_cons_self ..))
    have hcons : pairFound f (x :: l) = (x, b) :: pairFound f l := by simp [pairFound, hb]
    rw [hcons, List.map_cons, ih fun y hy => h y (List.mem_cons_of_mem x hy)]

theorem pairFound_filter (p : α → Bool) : pairFound f (l.filter p) = (pairFound f l).filter (p ∘ Prod.fst) := by
  induction l with
  | nil => rfl
  | cons x l ih =>
    by_cases hp : p x <;> cases hx : f x <;> simp_all [pairFound]

theorem pairFound_reverse : pairFound f l.reverse = (pairFound f l).reverse := by
  simp [pairFound, List.filterMap_reverse]

theorem mem_pairFound {x : α} {b : β} : (x, b) ∈ pairFound f l ↔ x ∈ l ∧ f x = some b := by
  simp [pairFound]

end Found

/-! ## What a chunk answers -/

variable {s : AwaitedActionDbImpl}

theorem mapM_lookupRangeEntry_ok {f : Error → Stop} :
    ∀ {l : List SortedAwaitedAction} {out : List (SortedAwaitedAction × AwaitedAction)},
      l.mapM (fun x => (lookupRangeEntry s x).mapError f) = .ok out →
        out = pairFound (fun x => s.getByOperationId x.operationId) l ∧ out.map Prod.fst = l
  | [], out, h => by
    simp only [List.mapM_nil, pure, Except.pure, Except.ok.injEq] at h
    simp [← h, pairFound]
  | x :: l, out, h => by
    obtain ⟨b, bs, hb, hbs, rfl⟩ := Except.mapM_cons_eq_ok.mp h
    obtain ⟨hrec, hfst⟩ := mapM_lookupRangeEntry_ok hbs
    cases hx : s.getByOperationId x.operationId with
    | none => simp [lookupRangeEntry, hx, Except.mapError] at hb
    | some a =>
      simp only [lookupRangeEntry, hx, Except.mapError, Except.ok.injEq] at hb
      subst hb
      exact ⟨by simp [pairFound, hx, hrec], by simp [hfst]⟩

theorem mapM_lookupRangeEntry_of_found {f : Error → Stop} {l : List SortedAwaitedAction}
    (h : ∀ x ∈ l, (s.getByOperationId x.operationId).isSome) :
    l.mapM (fun x => (lookupRangeEntry s x).mapError f) = .ok (pairFound (fun x => s.getByOperationId x.operationId) l) := by
  obtain ⟨out, hout⟩ := Except.mapM_eq_ok_of_forall (f := fun x => (lookupRangeEntry s x).mapError f) fun x hx => by
    obtain ⟨a, ha⟩ := Option.isSome_iff_exists.mp (h x hx)
    exact ⟨(x, a), by simp [lookupRangeEntry, ha, Except.mapError]⟩
  rw [hout, (mapM_lookupRangeEntry_ok hout).1]

theorem rangeOfActionsChunk_ok {state : SortedAwaitedActionState} {desc : Bool} {lo hi : Bound SortedAwaitedAction}
    {r : Option ((Bound SortedAwaitedAction × Bound SortedAwaitedAction) × List (SortedAwaitedAction × AwaitedAction))}
    (h : rangeOfActionsChunk state desc s lo hi = .ok r) :
    Bound.rangeValid lo hi = true ∧ ∃ out : List (SortedAwaitedAction × AwaitedAction),
      out.map Prod.fst = (if desc then (s.sortedRange state lo hi).reverse else s.sortedRange state lo hi) ∧
      r = match out.getLast? with
        | none => none
        | some (last, _) => some (if desc then (lo, .excluded last) else (.excluded last, hi), out) := by
  unfold rangeOfActionsChunk at h
  cases hv : Bound.rangeValid lo hi
  case false => simp [hv, throw, throwThe, MonadExceptOf.throw, Except.bind, bind] at h
  case true =>
    refine ⟨rfl, ?_⟩
    simp only [hv, Bool.not_true, Bool.false_eq_true, if_false, bind, Except.bind] at h
    split at h
    case h_1 => cases h
    case h_2 out hout =>
      refine ⟨out, (mapM_lookupRangeEntry_ok hout).2, ?_⟩
      cases hl : out.getLast? with
      | none => simpa [hl, pure, Except.pure] using h.symm
      | some p => simpa [hl, pure, Except.pure] using h.symm

theorem sortedRange_sorted (state : SortedAwaitedActionState) (lo hi : Bound SortedAwaitedAction) :
    (s.sortedRange state lo hi).Pairwise (· < ·) :=
  (Finset.sortedLT_sort _).pairwise.filter _

theorem contains_of_mem_sortedRange {state : SortedAwaitedActionState} {lo hi : Bound SortedAwaitedAction}
    {x : SortedAwaitedAction} (h : x ∈ s.sortedRange state lo hi) : Bound.contains lo hi x = true :=
  (List.mem_filter.mp h).2

theorem rangeOfActionsChunk_asc (state : SortedAwaitedActionState) (s : AwaitedActionDbImpl)
    (lo hi : Bound SortedAwaitedAction) (r) (h : rangeOfActionsChunk state false s lo hi = .ok r) :
    AscAnswer Prod.fst lo hi r := by
  obtain ⟨-, out, hout, rfl⟩ := rangeOfActionsChunk_ok h
  rw [if_neg Bool.false_ne_true] at hout
  cases hl : out.getLast? with
  | none => trivial
  | some p =>
    refine AscAnswer.of_last hl (by rw [hout]; exact sortedRange_sorted state lo hi) fun x hx => ?_
    have hmem : x.1 ∈ out.map Prod.fst := List.mem_map_of_mem hx
    rw [hout] at hmem
    exact contains_of_mem_sortedRange hmem

theorem rangeOfActionsChunk_desc (state : SortedAwaitedActionState) (s : AwaitedActionDbImpl)
    (lo hi : Bound SortedAwaitedAction) (r) (h : rangeOfActionsChunk state true s lo hi = .ok r) :
    DescAnswer Prod.fst lo hi r := by
  obtain ⟨-, out, hout, rfl⟩ := rangeOfActionsChunk_ok h
  rw [if_pos rfl] at hout
  cases hl : out.getLast? with
  | none => trivial
  | some p =>
    obtain ⟨init, hinit⟩ := List.getLast?_eq_some_iff.mp hl
    refine ⟨init, p, hinit, rfl, rfl, ?_, fun x hx => ?_⟩
    · rw [hout, List.pairwise_reverse]
      exact sortedRange_sorted state lo hi
    · have hmem : x.1 ∈ out.map Prod.fst := List.mem_map_of_mem hx
      rw [hout, List.mem_reverse] at hmem
      exact contains_of_mem_sortedRange hmem

theorem found_of_wf (hs : s.Wf) (state : SortedAwaitedActionState) {x : SortedAwaitedAction}
    (hx : x ∈ (s.sortedActionInfoHashKeys.get state.slot).sort (· ≤ ·)) :
    (s.getByOperationId x.operationId).isSome := by
  obtain ⟨a, ha, -⟩ := (hs.sorted _ x).mp (Finset.mem_sort _ |>.mp hx)
  simp [getByOperationId, ha]

-- The entries of the set of `state`, in order, with their records.
def storedEntries (s : AwaitedActionDbImpl) (state : SortedAwaitedActionState) : List (SortedAwaitedAction × AwaitedAction) :=
  pairFound (fun x => s.getByOperationId x.operationId) ((s.sortedActionInfoHashKeys.get state.slot).sort (· ≤ ·))

theorem rangeOfActionsChunk_of_wf (hs : s.Wf) (state : SortedAwaitedActionState) {lo hi : Bound SortedAwaitedAction}
    (hv : Bound.rangeValid lo hi = true) :
    rangeOfActionsChunk state false s lo hi = .ok (ascAnswer Prod.fst (s.storedEntries state) lo hi) ∧
      rangeOfActionsChunk state true s lo hi = .ok (descAnswer Prod.fst (s.storedEntries state) lo hi) := by
  have hfound : ∀ x ∈ s.sortedRange state lo hi, (s.getByOperationId x.operationId).isSome :=
    fun x hx => found_of_wf hs state (List.mem_filter.mp hx).1
  have hfound' : ∀ x ∈ (s.sortedRange state lo hi).reverse, (s.getByOperationId x.operationId).isSome :=
    fun x hx => hfound x (List.mem_reverse.mp hx)
  have hrange : pairFound (fun x => s.getByOperationId x.operationId) (s.sortedRange state lo hi) =
      (s.storedEntries state).filter fun x => Bound.contains lo hi x.1 := by
    rw [storedEntries, sortedRange, pairFound_filter]
    rfl
  constructor
  · simp only [rangeOfActionsChunk, hv, Bool.not_true, Bool.false_eq_true, if_false, bind, Except.bind,
      mapM_lookupRangeEntry_of_found hfound, hrange, ascAnswer]
    cases ((s.storedEntries state).filter fun x => Bound.contains lo hi x.1).getLast? with
    | none => rfl
    | some p => rfl
  · simp only [rangeOfActionsChunk, hv, Bool.not_true, Bool.false_eq_true, if_false, if_true, bind, Except.bind,
      mapM_lookupRangeEntry_of_found hfound', pairFound_reverse, hrange, descAnswer, List.getLast?_reverse]
    cases ((s.storedEntries state).filter fun x => Bound.contains lo hi x.1).head? with
    | none => rfl
    | some p => rfl

/-! ## The chunks over operation ids -/

theorem found_of_mem_keys {o : OperationId}
    (ho : o ∈ s.operationIdToAwaitedAction.keys.toFinset.sort (· ≤ ·)) :
    (s.operationIdToAwaitedAction.lookup o).isSome := by
  rw [AList.lookup_isSome, AList.mem_keys]
  simpa using ho

theorem allAwaitedActionsChunk_asc (s : AwaitedActionDbImpl) (lo hi : Bound OperationId) (r)
    (h : allAwaitedActionsChunk s lo hi = .ok r) : AscAnswer Prod.fst lo hi r := by
  unfold allAwaitedActionsChunk at h
  cases hv : Bound.rangeValid lo hi
  case false => simp [hv, throw, throwThe, MonadExceptOf.throw, Except.bind, bind] at h
  case true =>
    simp only [hv, Bool.not_true, Bool.false_eq_true, if_false, bind, Except.bind] at h
    have hfst : ((((s.operationIdToAwaitedAction.keys.toFinset.sort (· ≤ ·)).filter (Bound.contains lo hi)).filterMap
        fun o => (s.operationIdToAwaitedAction.lookup o).map (o, ·)).map Prod.fst) =
        (s.operationIdToAwaitedAction.keys.toFinset.sort (· ≤ ·)).filter (Bound.contains lo hi) :=
      map_fst_pairFound fun o ho => found_of_mem_keys (List.mem_filter.mp ho).1
    split at h
    case h_1 => cases h; trivial
    case h_2 last a hl =>
      cases h
      refine AscAnswer.of_last hl (by rw [hfst]; exact (Finset.sortedLT_sort _).pairwise.filter _) fun x hx => ?_
      have hmem : x.1 ∈ _ := List.mem_map_of_mem (f := Prod.fst) hx
      rw [hfst] at hmem
      exact (List.mem_filter.mp hmem).2

-- The operations with their records, in order of id.
def storedOperations (s : AwaitedActionDbImpl) : List (OperationId × AwaitedAction) :=
  pairFound s.operationIdToAwaitedAction.lookup (s.operationIdToAwaitedAction.keys.toFinset.sort (· ≤ ·))

theorem allAwaitedActionsChunk_of_valid (s : AwaitedActionDbImpl) {lo hi : Bound OperationId}
    (hv : Bound.rangeValid lo hi = true) :
    allAwaitedActionsChunk s lo hi = .ok (ascAnswer Prod.fst s.storedOperations lo hi) := by
  have hrange : pairFound s.operationIdToAwaitedAction.lookup
      ((s.operationIdToAwaitedAction.keys.toFinset.sort (· ≤ ·)).filter (Bound.contains lo hi)) =
      s.storedOperations.filter fun x => Bound.contains lo hi x.1 := by
    rw [storedOperations, pairFound_filter]
    rfl
  simp only [allAwaitedActionsChunk, hv, Bool.not_true, Bool.false_eq_true, if_false, bind, Except.bind, ascAnswer]
  rw [← hrange]
  split
  case h_1 hl => simp [pairFound, hl, pure, Except.pure]
  case h_2 last a hl => simp [pairFound, hl, pure, Except.pure]

/-! ## The streams -/

theorem yielded_ready {T : Type} (l : List T) :
    yielded (l.map (fun item => Poll.ready (some (Except.ok item : Except Stop T))) ++ [.ready none]) = l := by
  simp [yielded]

theorem map_fst_storedEntries_filter (hs : s.Wf) (state : SortedAwaitedActionState) (lo hi : Bound SortedAwaitedAction) :
    ((s.storedEntries state).filter fun x => Bound.contains lo hi x.1).map Prod.fst = s.sortedRange state lo hi := by
  have hall : (s.storedEntries state).map Prod.fst = (s.sortedActionInfoHashKeys.get state.slot).sort (· ≤ ·) :=
    map_fst_pairFound fun x hx => found_of_wf hs state hx
  rw [show (fun x : SortedAwaitedAction × AwaitedAction => Bound.contains lo hi x.1) = Bound.contains lo hi ∘ Prod.fst
    from rfl, ← List.filter_map, hall]
  rfl

theorem storedEntries_sorted (state : SortedAwaitedActionState) :
    ((s.storedEntries state).map Prod.fst).Pairwise (· < ·) :=
  (Finset.sortedLT_sort _).pairwise.sublist map_fst_pairFound_sublist

theorem sortedRange_of_not_rangeValid {state : SortedAwaitedActionState} {lo hi : Bound SortedAwaitedAction}
    (hv : Bound.rangeValid lo hi = false) : s.sortedRange state lo hi = [] := by
  rw [sortedRange, List.filter_eq_nil_iff]
  intro x _ hx
  rw [Bound.rangeValid_of_contains hx] at hv
  cases hv

theorem run_rangeOfActionsChunk_of_wf (hs : s.Wf) (state : SortedAwaitedActionState) (desc : Bool)
    (lo hi : Bound SortedAwaitedAction) :
    (yielded (ChunkedStream.run (rangeOfActionsChunk state desc) (List.replicate ((s.sortedRange state lo hi).length + 1) s)
      (ChunkedStream.new lo hi)).1).map Prod.fst =
      if desc then (s.sortedRange state lo hi).reverse else s.sortedRange state lo hi := by
  cases hv : Bound.rangeValid lo hi
  case false =>
    have hpanic : ∃ e, rangeOfActionsChunk state desc s lo hi = .error e := by
      simp [rangeOfActionsChunk, hv, throw, throwThe, MonadExceptOf.throw, bind, Except.bind]
    obtain ⟨e, he⟩ := hpanic
    simp [sortedRange_of_not_rangeValid hv, ChunkedStream.run_cons, pollNext, ChunkedStream.new, he, yielded]
  case true =>
    have hlen : ((s.storedEntries state).filter fun x => Bound.contains lo hi x.1).length =
        (s.sortedRange state lo hi).length := by
      rw [← map_fst_storedEntries_filter hs state lo hi, List.length_map]
    cases desc
    case false =>
      have h := run_ascAnswer (storedEntries_sorted state) (fun lo hi hv => (rangeOfActionsChunk_of_wf hs state hv).1) hv
      rw [hlen] at h
      rw [h, yielded_ready, map_fst_storedEntries_filter hs]
      rfl
    case true =>
      have h := run_descAnswer (storedEntries_sorted state) (fun lo hi hv => (rangeOfActionsChunk_of_wf hs state hv).2) hv
      rw [hlen] at h
      rw [h, yielded_ready, List.map_reverse, map_fst_storedEntries_filter hs]
      rfl

theorem map_fst_storedOperations (s : AwaitedActionDbImpl) :
    s.storedOperations.map Prod.fst = s.operationIdToAwaitedAction.keys.toFinset.sort (· ≤ ·) :=
  map_fst_pairFound fun _ ho => found_of_mem_keys ho

theorem run_allAwaitedActionsChunk (s : AwaitedActionDbImpl) :
    (yielded (ChunkedStream.run allAwaitedActionsChunk (List.replicate (s.operationIdToAwaitedAction.keys.length + 1) s)
      (ChunkedStream.new .unbounded .unbounded)).1).map Prod.fst = s.operationIdToAwaitedAction.keys.toFinset.sort (· ≤ ·) := by
  have hsorted : (s.storedOperations.map Prod.fst).Pairwise (· < ·) := by
    rw [map_fst_storedOperations]
    exact (Finset.sortedLT_sort _).pairwise
  have hall : (s.storedOperations.filter fun x => Bound.contains (.unbounded : Bound OperationId) .unbounded x.1) =
      s.storedOperations := List.filter_eq_self.mpr fun _ _ => rfl
  have hlen : s.storedOperations.length = s.operationIdToAwaitedAction.keys.length := by
    rw [← List.length_map (f := Prod.fst), map_fst_storedOperations, Finset.length_sort,
      List.toFinset_card_of_nodup (AList.keys_nodup _)]
  have h := run_ascAnswer hsorted (fun lo hi hv => allAwaitedActionsChunk_of_valid s hv) (Bound.rangeValid_unbounded)
  rw [hall, hlen] at h
  rw [h, yielded_ready, map_fst_storedOperations]

theorem paginated_streams_yield_each_once_in_order (state : SortedAwaitedActionState) (desc : Bool)
    (startKey endKey : Bound SortedAwaitedAction) (dbs : List AwaitedActionDbImpl) (calls : List Call) :
    -- under any changes between the chunks
    ((yielded (ChunkedStream.run (rangeOfActionsChunk state desc) dbs
      (ChunkedStream.new startKey endKey)).1).map Prod.fst).Nodup ∧
    (if desc then
      ((yielded (ChunkedStream.run (rangeOfActionsChunk state desc) dbs
        (ChunkedStream.new startKey endKey)).1).map Prod.fst).Pairwise (· > ·)
    else
      ((yielded (ChunkedStream.run (rangeOfActionsChunk state desc) dbs
        (ChunkedStream.new startKey endKey)).1).map Prod.fst).Pairwise (· < ·)) ∧
    (∀ y ∈ yielded (ChunkedStream.run (rangeOfActionsChunk state desc) dbs (ChunkedStream.new startKey endKey)).1,
      Bound.contains startKey endKey y.1 = true) ∧
    -- with none, from any state a run of the database reaches
    (yielded (ChunkedStream.run (rangeOfActionsChunk state desc)
      (List.replicate (((run calls).sortedRange state startKey endKey).length + 1) (run calls))
      (ChunkedStream.new startKey endKey)).1).map Prod.fst =
      (if desc then ((run calls).sortedRange state startKey endKey).reverse
      else (run calls).sortedRange state startKey endKey) ∧
    -- `get_all_awaited_actions`
    ((yielded (ChunkedStream.run allAwaitedActionsChunk dbs
      (ChunkedStream.new .unbounded .unbounded)).1).map Prod.fst).Pairwise (· < ·) ∧
    (yielded (ChunkedStream.run allAwaitedActionsChunk
      (List.replicate ((run calls).operationIdToAwaitedAction.keys.length + 1) (run calls))
      (ChunkedStream.new .unbounded .unbounded)).1).map Prod.fst =
      (run calls).operationIdToAwaitedAction.keys.toFinset.sort (· ≤ ·) := by
  have hall := yielded_ascending (fun env lo hi r h => allAwaitedActionsChunk_asc env lo hi r h)
    (.unbounded : Bound OperationId) .unbounded dbs
  have hexact := run_rangeOfActionsChunk_of_wf (run_wf calls) state desc startKey endKey
  cases desc
  case false =>
    obtain ⟨hsorted, hwithin⟩ := yielded_ascending (fun env lo hi r h => rangeOfActionsChunk_asc state env lo hi r h)
      startKey endKey dbs
    exact ⟨hsorted.imp ne_of_lt, hsorted, hwithin, hexact, hall.1, run_allAwaitedActionsChunk _⟩
  case true =>
    obtain ⟨hsorted, hwithin⟩ := yielded_descending (fun env lo hi r h => rangeOfActionsChunk_desc state env lo hi r h)
      startKey endKey dbs
    exact ⟨hsorted.imp ne_of_gt, hsorted, hwithin, hexact, hall.1, run_allAwaitedActionsChunk _⟩

end NativeLink.Scheduler.AwaitedActionDbImpl
