import NativeLink.Util.EvictingMap.Eviction

-- Expiry by age. `should_evict` reads an entry as expired when its `seconds_since_anchor` is below
-- `now - max_seconds`, computed in `i32` from the `u32` of the configuration. `get` evicts from the
-- least recently used end only, and then returns the entry it was asked for without looking at its
-- age; so it returns no expired entry when the recency order of the LRU agrees with the order of
-- the timestamps, an order that `insert_with_time` is free to break.

namespace NativeLink.EvictingMap

open Lru EStateM

variable {K T : Type} [LinearOrder K] [LenEntry T] {m : EvictingMap} {now : Nat} {s : State K T}
  {key : K}

-- The age test of `should_evict`.
def Expired (m : EvictingMap) (now : Nat) (item : EvictionItem T) : Prop :=
  item.secondsSinceAnchor < Int32.ofNat now - m.maxSeconds

instance (m : EvictingMap) (now : Nat) (item : EvictionItem T) : Decidable (m.Expired now item) :=
  inferInstanceAs (Decidable (_ < _))

-- While nothing overflows, the test is the one the configuration describes: the entry was last
-- touched more than `max_seconds` before `now`.
omit [LenEntry T] in
theorem expired_iff {item : EvictionItem T} (hnow : now < 2 ^ 31) (hms : 0 ≤ m.maxSeconds.toInt) :
    m.Expired now item ↔ item.secondsSinceAnchor.toInt + m.maxSeconds.toInt < now := by
  have hnow' : (Int32.ofNat now).toInt = now := Int32.toInt_ofNat_of_lt hnow
  have hms' := m.maxSeconds.toInt_lt
  have hsub : (Int32.ofNat now - m.maxSeconds).toInt = now - m.maxSeconds.toInt := by
    rw [Int32.toInt_sub, hnow']
    exact Int.bmod_eq_of_le (by omega) (by omega)
  rw [Expired, Int32.lt_iff_toInt_lt, hsub]
  omega

theorem new_maxSeconds_toInt {config : EvictionPolicy} (h : config.maxSeconds.toNat < 2 ^ 31) :
    (new config).maxSeconds.toInt = config.maxSeconds.toNat := by
  show config.maxSeconds.toBitVec.toInt = _
  rw [BitVec.toInt_eq_toNat_of_lt (by simp; omega)]
  rfl

-- The timestamps ascend from the least to the most recently used entry.
def State.TimeOrdered (s : State K T) : Prop :=
  (s.lru.entries.map (·.2.secondsSinceAnchor.toInt)).Pairwise (· ≤ ·)

omit [LinearOrder K] [LenEntry T] in
theorem State.TimeOrdered.drop {s' : State K T} {n : Nat} (ho : s.TimeOrdered)
    (h : s'.lru.entries = s.lru.entries.drop n) : s'.TimeOrdered := by
  rw [State.TimeOrdered, h, List.map_drop]
  exact ho.sublist (List.drop_sublist _ _)

omit [LinearOrder K] [LenEntry T] in
theorem State.TimeOrdered.not_expired (ho : s.TimeOrdered) {e₀ : K × EvictionItem T}
    (hpeek : s.lru.peekLru = some e₀) (h₀ : ¬m.Expired now e₀.2) :
    ∀ e ∈ s.lru.entries, ¬m.Expired now e.2 := by
  obtain ⟨es, hes⟩ : ∃ es, s.lru.entries = e₀ :: es := by
    cases hl : s.lru.entries
    case nil => simp [LruCache.peekLru, hl] at hpeek
    case cons e es =>
      simp only [LruCache.peekLru, hl, List.head?_cons, Option.some.injEq] at hpeek
      exact ⟨es, by rw [hpeek]⟩
  have hsorted : ((e₀ :: es).map (·.2.secondsSinceAnchor.toInt)).Pairwise (· ≤ ·) := hes ▸ ho
  intro e he hexp
  rw [hes] at he
  apply h₀
  rw [Expired, Int32.lt_iff_toInt_lt] at hexp ⊢
  rcases List.mem_cons.mp he with rfl | he
  case inl => exact hexp
  case inr =>
    have hle := List.rel_of_pairwise_cons hsorted (List.mem_map_of_mem he)
    exact lt_of_le_of_lt hle hexp

omit [LinearOrder K] [LenEntry T] in
theorem Settled.not_expired {maxBytes : Nat} (hset : Settled m now maxBytes s) (ho : s.TimeOrdered)
    (hm : m.maxSeconds ≠ 0) : ∀ e ∈ s.lru.entries, ¬m.Expired now e.2 := by
  cases hp : s.lru.peekLru
  case none =>
    have hnil : s.lru.entries = [] := by simpa [LruCache.peekLru] using hp
    simp [hnil]
  case some e₀ => exact ho.not_expired hp ((shouldEvict_eq_false.mp (hset e₀ hp)).2.1 hm)

theorem get_fresh (hs : s.Accounted) (ho : s.TimeOrdered) (hm : m.maxSeconds ≠ 0) (touched : Bool) :
    Post (fun r _ => ∀ d ∈ r, ∃ e, (key, e) ∈ s.lru.entries ∧ e.data = d ∧ ¬m.Expired now e)
      (fun _ _ => False) ((m.get now key touched).run s) := by
  simp only [get]
  refine Post.bind (evictItems_post hs) fun _ s₁ hevict => ?_
  obtain ⟨hs₁, ⟨n, hn⟩, hset⟩ := hevict
  have hfresh : ∀ e ∈ s₁.lru.entries, ¬m.Expired now e.2 := by
    cases hp : s.lru.peekLru
    case none =>
      have hnil : s.lru.entries = [] := by simpa [LruCache.peekLru] using hp
      simp [hn, hnil]
    case some e₀ => exact (hset e₀ hp).not_expired (ho.drop hn) hm
  simp only [run_bind, run_getThe]
  cases hp : s₁.lru.peek key
  case none => exact fun d hd => by cases hd
  case some entry =>
    have hmem₁ := LruCache.mem_entries_of_peek hp
    have hmem : (key, entry) ∈ s.lru.entries := List.mem_of_mem_drop (hn ▸ hmem₁)
    rw [run_bind_of_ok (run_set _ _)]
    split
    case isTrue =>
      rw [run_bind_of_ok touchEntry_run]
      intro d hd
      have hd' : entry.data = d := Option.mem_some_iff.mp hd
      have he : ¬m.Expired now entry := hfresh (key, entry) hmem₁
      exact ⟨entry, hmem, hd', he⟩
    case isFalse =>
      have hp' : (s₁.lru.promote key).peek key = some entry := by rw [LruCache.peek_promote, hp]
      have hs₂ : ({ s₁ with lru := s₁.lru.promote key } : State K T).Accounted := hs₁.promote
      have hle := hs₂.le_of_peek hp'
      rw [run_bind_of_ok (popAndRemove_run_of_peek_some hp' hle)]
      exact fun d hd => by cases hd

-- Out of time order, and with a `max_seconds` that `as i32` turns negative, both directions fail.
-- With `max_seconds = 10`, an entry inserted at `100` and then one inserted with the time `0`: the
-- eviction at `100` stops at the first, which has not expired, and `get` returns the second,
-- `100` seconds old. With `max_seconds = u32::MAX`, read as `-1`, an entry expires the second it is
-- inserted, and the insert's own eviction removes it.
theorem get_returns_expired_entry :
    (∃ (s : State Nat BytesWrapper) (d : BytesWrapper) (s' : State Nat BytesWrapper),
      (EvictingMap.new ⟨0, 0, 10, 0⟩).run [(100, .insert 1 ⟨[]⟩), (100, .insertWithTime 2 ⟨[]⟩ 0)] = s ∧
        ((s.lru.peek 2).any fun e => decide ((EvictingMap.new ⟨0, 0, 10, 0⟩).Expired 100 e)) = true ∧
        ((EvictingMap.new ⟨0, 0, 10, 0⟩).get 100 2 true).run s = .ok (some d) s') ∧
    (∃ s : State Nat BytesWrapper,
      (EvictingMap.new ⟨0, 0, 4294967295, 0⟩).run [(5, .insert 1 ⟨[]⟩)] = s ∧
        (EvictingMap.new ⟨0, 0, 4294967295, 0⟩).Expired 5 (⟨Int32.ofNat 5, ⟨[]⟩⟩ : EvictionItem BytesWrapper) ∧ s.lru.keys = []) := by
  refine ⟨⟨_, _, _, rfl, ?_, rfl⟩, ⟨_, rfl, ?_, ?_⟩⟩ <;> decide +kernel

end NativeLink.EvictingMap
