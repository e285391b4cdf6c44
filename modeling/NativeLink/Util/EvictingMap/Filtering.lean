import NativeLink.Util.EvictingMap.Invariant

-- The filtering index. `btree` is kept beside the LRU so that `range` can walk the keys in order.
-- Every key of the index is a key of the LRU in every reachable state (`State.IndexSubset`, an
-- `Invariant` whose bad panic is the `unwrap` of `range`), so that `unwrap` never fails. The
-- converse inclusion is not kept: over a stored key, `State::put` inserts the key into the index
-- and the `State::remove` of the old entry erases it again.

namespace NativeLink.EvictingMap

open Lru EStateM

variable {K T : Type} [LinearOrder K] [LenEntry T] {s : State K T} {key : K} {item : EvictionItem T}

def State.IndexSubset (s : State K T) : Prop :=
  ∀ t ∈ s.btree, ∀ k ∈ t, k ∈ s.lru.keys

def Unwrap (e : Panic) : Prop :=
  e = .unwrapNone

omit [LinearOrder K] [LenEntry T] in
theorem State.IndexSubset.of_keys {s' : State K T} (hs : s.IndexSubset)
    (hb : ∀ t' ∈ s'.btree, ∀ k ∈ t', ∃ t ∈ s.btree, k ∈ t) (hk : ∀ k ∈ s.lru.keys, k ∈ s'.lru.keys) :
    s'.IndexSubset := by
  intro t' ht' k hk'
  obtain ⟨t, ht, hkt⟩ := hb t' ht' k hk'
  exact hk k (hs t ht k hkt)

theorem remove_run_indexSubset (h : ∀ t ∈ s.btree, ∀ k ∈ t, k ≠ key → k ∈ s.lru.keys) :
    Ends State.IndexSubset Unwrap ((State.remove key item).run s) := by
  obtain ⟨hlru, hbtree⟩ := State.remove_run_state key item s
  refine Ends.intro ?_ fun e s' hrun => ?_
  case refine_1 =>
    intro t' ht' k hk
    rw [hbtree] at ht'
    rw [hlru]
    obtain ⟨t, ht, rfl⟩ := Option.mem_map.mp ht'
    obtain ⟨hne, hkt⟩ := Finset.mem_erase.mp hk
    exact h t ht k hkt hne
  case refine_2 =>
    rw [State.remove_run_error hrun]
    nofun

theorem remove_preserves_indexSubset :
    Preserves State.IndexSubset Unwrap (State.remove key item : Program K T Unit) :=
  fun _ hs => remove_run_indexSubset fun t ht k hk _ => hs t ht k hk

theorem put_preserves_indexSubset :
    Preserves State.IndexSubset Unwrap (State.put key item : Program K T (Option T)) := by
  intro s hs
  have hins : ({ s with btree := s.btree.map (Insert.insert key), lru := (s.lru.put key item).2 } :
      State K T).IndexSubset := by
    intro t' ht' k hk
    obtain ⟨t, ht, rfl⟩ := Option.mem_map.mp ht'
    refine LruCache.mem_keys_put.mpr ?_
    rcases Finset.mem_insert.mp hk with rfl | hkt
    case inl => exact .inl rfl
    case inr => exact .inr (hs t ht k hkt)
  cases h : s.lru.peek key
  case none =>
    rw [State.put_run_of_peek_none h]
    exact hins
  case some old =>
    rw [State.put_run_of_peek_some_eq h]
    exact (remove_preserves_indexSubset _ hins).bind_preserves fun _ => Preserves.pure _

omit [LenEntry T] in
theorem rangeLoop_ne_error {σ : Type} {lru : LruCache K (EvictionItem T)}
    {handler : σ → K → T → σ × Bool} {e : Panic} :
    ∀ {keys : List K} {acc : σ} {count : Nat}, (∀ k ∈ keys, k ∈ lru.keys) →
      rangeLoop lru handler keys acc count ≠ .error e
  | [], _, _, _ => nofun
  | key :: keys, acc, count, h => by
    obtain ⟨item, hitem⟩ := LruCache.mem_keys_iff_exists_peek.mp (h key List.mem_cons_self)
    simp only [rangeLoop, hitem]
    split
    case isTrue => exact rangeLoop_ne_error fun k hk => h k (List.mem_cons_of_mem _ hk)
    case isFalse =>
      intro herr
      cases herr

theorem remove_popped_indexSubset {lru : LruCache K (EvictionItem T)} (hs : s.IndexSubset)
    (hpop : s.lru.pop key = (some item, lru)) :
    Ends State.IndexSubset Unwrap ((State.remove key item).run { s with lru }) := by
  obtain ⟨-, rfl⟩ := LruCache.pop_eq_some.mp hpop
  exact remove_run_indexSubset fun t ht k hk hne => LruCache.mem_keys_erase.mpr ⟨hs t ht k hk, hne⟩

theorem indexSubset_invariant : Invariant (State.IndexSubset : State K T → Prop) Unwrap where
  promote _ _ hs := hs.of_keys (fun t ht _ hk => ⟨t, ht, hk⟩) fun _ => LruCache.mem_keys_promote.mpr
  touch _ _ := Preserves.modify fun _ hs =>
    hs.of_keys (fun t ht _ hk => ⟨t, ht, hk⟩) fun _ => LruCache.mem_keys_modify.mpr
  removePopped _ _ _ _ hs hpop := remove_popped_indexSubset hs hpop
  putAdd _ _ _ k hk := by
    refine put_preserves_indexSubset.bind fun old =>
      Preserves.bind (Preserves.modify fun _ hs => ?_) fun _ => hk old
    exact hs
  rebuild := Preserves.modify fun s _ t ht k hk => by
    cases ht
    exact List.mem_toFinset.mp hk
  rangeInvalid := nofun
  rangeLoopSafe s _ _ lo hi _ _ hs he := by
    refine absurd he (rangeLoop_ne_error fun k hk => ?_)
    have hkt : k ∈ s.btree.getD ∅ := (Finset.mem_sort _).mp (List.mem_filter.mp hk).1
    cases hb : s.btree
    case none => simp [hb] at hkt
    case some t => exact hs t hb k (by simpa [hb] using hkt)

theorem put_run_drops_key {old : EvictionItem T} (h : s.lru.peek key = some old) :
    key ∈ ((State.put key item).run s).state.lru.keys ∧
      ∀ t ∈ ((State.put key item).run s).state.btree, key ∉ t := by
  rw [State.put_run_of_peek_some_eq h, state_run_bind_pure]
  obtain ⟨hlru, hbtree⟩ := State.remove_run_state key old
    ({ s with btree := s.btree.map (Insert.insert key), lru := (s.lru.put key item).2 } : State K T)
  rw [hlru, hbtree]
  refine ⟨LruCache.mem_keys_put.mpr (.inl rfl), fun t ht hk => ?_⟩
  obtain ⟨t', -, rfl⟩ := Option.mem_map.mp ht
  exact (Finset.mem_erase.mp hk).1 rfl

theorem run_indexSubset (m : EvictingMap) (calls : List (Nat × Op K T)) : (m.run calls).IndexSubset :=
  indexSubset_invariant.run (fun _ h => nomatch h) calls

theorem range_ne_unwrapNone (m : EvictingMap) (calls : List (Nat × Op K T)) {σ : Type}
    (lo hi : Bound K) (handler : σ → K → T → σ × Bool) (init : σ) (s' : State K T) :
    (EvictingMap.range lo hi handler init).run (m.run calls) ≠ .error .unwrapNone s' := by
  intro h
  have hends := indexSubset_invariant.range lo hi handler init _ (run_indexSubset m calls)
  rw [h] at hends
  exact hends.2 rfl

end NativeLink.EvictingMap
