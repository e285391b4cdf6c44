import NativeLink.Util.EvictingMap.Invariant

-- `sum_store_size` accounting: the field always holds the total length of the entries in the LRU,
-- and the subtraction in `State::remove` therefore never goes below zero. The invariant is
-- `State.Accounted`, an `Invariant` of the map with the overflow as its bad panic.

namespace NativeLink.EvictingMap

open Lru EStateM

variable {K T : Type} [LinearOrder K] [LenEntry T] {m : EvictingMap} {now : Nat}
  {s : State K T} {key : K} {item : EvictionItem T}

def State.Accounted (s : State K T) : Prop :=
  s.sumStoreSize = s.lru.sumBy itemLen

def Underflow (e : Panic) : Prop :=
  e = .subtractOverflow

omit [LinearOrder K] in
theorem State.Accounted.of_eq {s' : State K T} (hs : s.Accounted) (hl : s'.lru = s.lru)
    (hsum : s'.sumStoreSize = s.sumStoreSize) : s'.Accounted := by
  rw [State.Accounted, hl, hsum]
  exact hs

theorem State.Accounted.le_of_peek (hs : s.Accounted) (h : s.lru.peek key = some item) :
    itemLen item ≤ s.sumStoreSize :=
  hs ▸ LruCache.le_sumBy_of_peek h

theorem State.Accounted.promote (hs : s.Accounted) :
    ({ s with lru := s.lru.promote key } : State K T).Accounted := by
  show s.sumStoreSize = (s.lru.promote key).sumBy itemLen
  rw [LruCache.sumBy_promote]
  exact hs

omit [LinearOrder K] in
theorem State.Accounted.modify [DecidableEq K] {f : EvictionItem T → EvictionItem T}
    (hf : ∀ e, (f e).data = e.data) (hs : s.Accounted) :
    ({ s with lru := s.lru.modify key f } : State K T).Accounted := by
  have := LruCache.sumBy_modify (c := s.lru) (k := key) (f := itemLen) (g := f)
    fun e => by simp [itemLen, hf]
  rw [State.Accounted, this]
  exact hs

theorem remove_run_of_pop {lru : LruCache K (EvictionItem T)} (hs : s.Accounted)
    (h : s.lru.pop key = (some item, lru)) :
    ∃ s', (State.remove key item).run { s with lru } = .ok () s' ∧ s'.Accounted := by
  obtain ⟨hpeek, rfl⟩ := LruCache.pop_eq_some.mp h
  refine ⟨_, State.remove_run (hs.le_of_peek hpeek), ?_⟩
  have herase := LruCache.sumBy_erase_add (c := s.lru) (k := key) (f := itemLen)
  have hs' : s.sumStoreSize = s.lru.sumBy itemLen := hs
  show s.sumStoreSize - itemLen item = (s.lru.erase key).sumBy itemLen
  simp only [hpeek, Option.elim_some] at herase
  omega

theorem put_run_accounted (key : K) (item : EvictionItem T) (hs : s.Accounted) :
    ∃ old s', (State.put key item).run s = .ok old s' ∧
      s'.sumStoreSize + itemLen item = s'.lru.sumBy itemLen := by
  have hput := LruCache.sumBy_put_add (c := s.lru) (k := key) (v := item) (f := itemLen)
  have hs' : s.sumStoreSize = s.lru.sumBy itemLen := hs
  cases h : s.lru.peek key
  case none =>
    refine ⟨_, _, State.put_run_of_peek_none h, ?_⟩
    show s.sumStoreSize + itemLen item = (s.lru.put key item).2.sumBy itemLen
    simp only [h, Option.elim_none] at hput
    omega
  case some old =>
    have hle := hs.le_of_peek h
    refine ⟨_, _, State.put_run_of_peek_some h hle, ?_⟩
    show s.sumStoreSize - itemLen old + itemLen item = (s.lru.put key item).2.sumBy itemLen
    simp only [h, Option.elim_some] at hput
    omega

theorem accounted_invariant : Invariant (State.Accounted : State K T → Prop) Underflow where
  promote _ _ hs := hs.promote
  touch _ _ := Preserves.modify fun _ hs => hs.modify fun _ => rfl
  removePopped s key item lru hs hpop := by
    obtain ⟨s', hrm, hs'⟩ := remove_run_of_pop hs hpop
    rw [hrm]
    exact hs'
  putAdd key item _ k hk s hs := by
    obtain ⟨old, s', hput, hsum⟩ := put_run_accounted key item hs
    rw [run_bind_of_ok hput, run_bind_of_ok (run_modify _ _)]
    exact hk old _ hsum
  rebuild := Preserves.modify fun _ hs => hs
  rangeInvalid := nofun
  rangeLoopSafe _ _ _ _ _ _ _ _ he h := Panic.noConfusion ((rangeLoop_eq_error he).symm.trans h)

-- In every reachable state the counter is the sum of the lengths in the LRU, no call panics on
-- the subtraction, and `put` over a stored key subtracts the old length and leaves the LRU ahead
-- of the counter by the new entry's length alone, which `inner_insert_many` then adds.
theorem sumStoreSize_accounted (m : EvictingMap) (calls : List (Nat × Op K T)) :
    (m.run calls).sumStoreSize = (m.run calls).lru.sumBy itemLen ∧
    (∀ now (op : Op K T) s', (op.exec m now).run (m.run calls) ≠ .error .subtractOverflow s') ∧
    (∀ key old item, (m.run calls).lru.peek key = some old →
      ∃ s', (State.put key item).run (m.run calls) = .ok (some old.data) s' ∧
        s'.sumStoreSize = (m.run calls).sumStoreSize - itemLen old ∧
        s'.sumStoreSize + itemLen item = s'.lru.sumBy itemLen) := by
  have hs : (m.run calls).Accounted := accounted_invariant.run rfl calls
  refine ⟨hs, ?_, ?_⟩
  case refine_1 =>
    intro now op s' h
    exact accounted_invariant.exec_not_bad rfl calls op h rfl
  case refine_2 =>
    intro key old item hpeek
    obtain ⟨old', s', hput, hsum⟩ := put_run_accounted key item hs
    rw [State.put_run_of_peek_some hpeek (hs.le_of_peek hpeek)] at hput ⊢
    cases hput
    exact ⟨_, rfl, rfl, hsum⟩

end NativeLink.EvictingMap
