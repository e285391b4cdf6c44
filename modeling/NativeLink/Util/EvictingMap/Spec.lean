import NativeLink.Util.EvictingMap

-- What the primitives of the map do to the state when they do not panic. The invariants of the
-- map are proved from these equations, never by unfolding the primitives again.

namespace NativeLink.EvictingMap

open Lru EStateM

variable {K T : Type} [LinearOrder K] [LenEntry T] {m : EvictingMap} {now : Nat}
  {s : State K T} {key : K} {item old : EvictionItem T}

namespace State

theorem remove_run (h : itemLen item ≤ s.sumStoreSize) :
    (remove key item).run s = .ok () { s with
      btree := s.btree.map (·.erase key), sumStoreSize := s.sumStoreSize - itemLen item,
      unrefd := s.unrefd ++ [item.data] } := by
  simp [remove, EStateM.run, Nat.not_lt.mpr h]

theorem remove_run_state (key : K) (item : EvictionItem T) (s : State K T) :
    ((remove key item).run s).state.lru = s.lru ∧
      ((remove key item).run s).state.btree = s.btree.map (·.erase key) := by
  by_cases h : s.sumStoreSize < itemLen item <;> simp [remove, EStateM.run, h]

theorem remove_run_error {e : Panic} {s' : State K T} (h : (remove key item).run s = .error e s') :
    e = .subtractOverflow := by
  by_cases hlt : s.sumStoreSize < itemLen item <;> simp_all [remove, EStateM.run]

theorem put_run_of_peek_none (h : s.lru.peek key = none) :
    (put key item).run s = .ok none { s with
      btree := s.btree.map (Insert.insert key), lru := (s.lru.put key item).2 } := by
  simp [put, h]

theorem put_run_of_peek_some_eq (h : s.lru.peek key = some old) :
    (put key item).run s = (remove key old >>= fun _ => pure (some old.data)).run
      { s with btree := s.btree.map (Insert.insert key), lru := (s.lru.put key item).2 } := by
  simp only [put, run_bind, run_modify, run_modifyGet, LruCache.put_fst, h]

theorem put_run_of_peek_some (h : s.lru.peek key = some old) (hle : itemLen old ≤ s.sumStoreSize) :
    (put key item).run s = .ok (some old.data) { s with
      btree := (s.btree.map (Insert.insert key)).map (·.erase key), lru := (s.lru.put key item).2,
      sumStoreSize := s.sumStoreSize - itemLen old, unrefd := s.unrefd ++ [old.data] } := by
  rw [put_run_of_peek_some_eq h, run_bind_of_ok (remove_run (s := { s with
    btree := s.btree.map (Insert.insert key), lru := (s.lru.put key item).2 }) hle)]
  rfl

end State

theorem popAndRemove_run_of_peek_none (h : s.lru.peek key = none) :
    (popAndRemove key).run s = .ok () s := by
  simp [popAndRemove, LruCache.pop, h]

theorem popAndRemove_run_of_peek_some (h : s.lru.peek key = some item)
    (hle : itemLen item ≤ s.sumStoreSize) :
    (popAndRemove key).run s = .ok () { s with
      lru := s.lru.erase key, btree := s.btree.map (·.erase key),
      sumStoreSize := s.sumStoreSize - itemLen item, unrefd := s.unrefd ++ [item.data] } := by
  simp only [popAndRemove, LruCache.pop, h, run_bind, run_getThe, run_set]
  exact State.remove_run (s := { s with lru := s.lru.erase key }) hle

omit [LenEntry T] in
theorem touchEntry_run :
    (touchEntry now key).run s = .ok () { s with
      lru := s.lru.modify key fun e => { e with secondsSinceAnchor := Int32.ofNat now } } :=
  rfl

omit [LenEntry T] in
theorem rangeLoop_eq_error {σ : Type} {lru : LruCache K (EvictionItem T)} {handler : σ → K → T → σ × Bool}
    {e : Panic} : ∀ {keys : List K} {acc : σ} {count : Nat},
    rangeLoop lru handler keys acc count = .error e → e = .unwrapNone
  | [], _, _, h => nomatch h
  | key :: keys, acc, count, h => by
    simp only [rangeLoop] at h
    split at h
    case h_1 =>
      injection h with h
      exact h.symm
    case h_2 item _ =>
      split at h
      case isTrue => exact rangeLoop_eq_error h
      case isFalse => nomatch h

omit [LenEntry T] in
theorem range_run_of_btree {σ : Type} {t : Finset K} {lo hi : Bound K} {handler : σ → K → T → σ × Bool}
    {init : σ} (h : s.btree = some t) (hv : Bound.rangeValid lo hi = true) :
    (EvictingMap.range lo hi handler init).run s =
      match rangeLoop s.lru handler ((t.sort (· ≤ ·)).filter (Bound.contains lo hi)) init 0 with
      | .ok r => .ok r s
      | .error e => .error e s := by
  simp only [EvictingMap.range, run_bind, run_getThe, h, Option.isNone_some, Bool.false_eq_true,
    ite_false, hv, Bool.not_true, Option.getD_some]
  cases rangeLoop s.lru handler ((t.sort (· ≤ ·)).filter (Bound.contains lo hi)) init 0 <;> rfl

omit [LenEntry T] in
theorem rebuildBtreeIndex_run :
    rebuildBtreeIndex.run s = .ok () { s with btree := some s.lru.keys.toFinset } :=
  rfl

end NativeLink.EvictingMap
