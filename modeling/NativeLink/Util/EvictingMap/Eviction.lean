import NativeLink.Util.EvictingMap.Accounting
import NativeLink.Store.MemoryStore

-- The eviction of `evict_items`. Its loop pops entries from the least recently used end while
-- `should_evict` holds of the entry there, so it stops with the map within the limit it ran with,
-- holding the most recently used part of what it held. The limit is `max_bytes`, or the low
-- watermark `max_bytes - evict_bytes` once an eviction is due; when `evict_bytes ≥ max_bytes` the
-- watermark is `0`, which `should_evict` reads as no size limit at all.

namespace NativeLink.EvictingMap

open Lru EStateM

variable {K T : Type} [LinearOrder K] [LenEntry T] {m : EvictingMap} {now maxBytes : Nat}
  {s : State K T}

omit [LinearOrder K] [LenEntry T] in
theorem shouldEvict_eq_false {lruLen sumStoreSize : Nat} {e : EvictionItem T} :
    m.shouldEvict now lruLen e sumStoreSize maxBytes = false ↔
      (maxBytes ≠ 0 → sumStoreSize < maxBytes) ∧
      (m.maxSeconds ≠ 0 → ¬e.secondsSinceAnchor < Int32.ofNat now - m.maxSeconds) ∧
      (m.maxCount ≠ 0 → lruLen ≤ m.maxCount) := by
  simp only [shouldEvict, Bool.or_eq_false_iff, Bool.and_eq_false_imp, bne_iff_ne, ne_eq,
    decide_eq_false_iff_not, Nat.not_le, Nat.not_lt, and_assoc]

-- Where the loop of `evict_items` stops: nothing is left, or the least recently used entry is not
-- to be evicted under the limit `maxBytes`.
def Settled (m : EvictingMap) (now maxBytes : Nat) (s : State K T) : Prop :=
  ∀ e ∈ s.lru.peekLru, m.shouldEvict now s.lru.len e.2 s.sumStoreSize maxBytes = false

omit [LinearOrder K] [LenEntry T] in
theorem settled_of_entries_nil (h : s.lru.entries = []) : Settled m now maxBytes s := by
  intro e he
  simp [LruCache.peekLru, h] at he

namespace Settled

omit [LinearOrder K]

omit [LenEntry T] in
theorem len_le (hset : Settled m now maxBytes s) (hc : m.maxCount ≠ 0) : s.lru.len ≤ m.maxCount := by
  cases hp : s.lru.peekLru
  case none =>
    have hnil : s.lru.entries = [] := by simpa [LruCache.peekLru] using hp
    simp [LruCache.len, hnil]
  case some e => exact (shouldEvict_eq_false.mp (hset e hp)).2.2 hc

theorem sumStoreSize_lt (hset : Settled m now maxBytes s) (hs : s.Accounted) (h0 : maxBytes ≠ 0) :
    s.sumStoreSize < maxBytes := by
  cases hp : s.lru.peekLru
  case none =>
    have hnil : s.lru.entries = [] := by simpa [LruCache.peekLru] using hp
    have hzero : s.sumStoreSize = 0 := by
      rw [show s.sumStoreSize = s.lru.sumBy itemLen from hs, LruCache.sumBy, hnil]
      rfl
    omega
  case some e => exact (shouldEvict_eq_false.mp (hset e hp)).1 h0

end Settled

-- The `max_bytes` that `evict_items` computes before its loop, `due` being whether `should_evict`
-- holds under the configured limits: the low watermark, which is `0` when `evict_bytes ≥ max_bytes`.
def evictLimit (m : EvictingMap) (due : Bool) : Nat :=
  if m.maxBytes != 0 && m.evictBytes != 0 && due then
    if m.maxBytes > m.evictBytes then m.maxBytes - m.evictBytes else 0
  else m.maxBytes

theorem evictLimit_of_lt (due : Bool) (h : m.evictBytes < m.maxBytes) :
    0 < m.evictLimit due ∧ m.evictLimit due ≤ m.maxBytes ∧
      (due = true → m.evictLimit due = m.maxBytes - m.evictBytes) := by
  by_cases he : m.evictBytes = 0
  case pos => simp [evictLimit, he]; omega
  case neg =>
    have h0 : m.maxBytes ≠ 0 := by omega
    cases due
    case false => simp [evictLimit]; omega
    case true =>
      have hlimit : m.evictLimit true = m.maxBytes - m.evictBytes := by
        rw [evictLimit, if_pos (by simp [h0, he]), if_pos h]
      rw [hlimit]
      exact ⟨by omega, by omega, fun _ => rfl⟩

theorem evictLoop_post : ∀ fuel (s : State K T), s.Accounted → s.lru.len ≤ fuel →
    Post (fun _ s' => s'.Accounted ∧ (∃ n, s'.lru.entries = s.lru.entries.drop n) ∧ Settled m now maxBytes s')
      (fun _ _ => False) ((m.evictLoop now maxBytes fuel).run s)
  | 0, s, hs, hfuel => by
    have hnil : s.lru.entries = [] := List.eq_nil_of_length_eq_zero (Nat.le_zero.mp hfuel)
    exact ⟨hs, ⟨0, rfl⟩, settled_of_entries_nil hnil⟩
  | fuel + 1, s, hs, hfuel => by
    simp only [evictLoop, run_bind, run_getThe]
    split
    case h_1 key₀ peekEntry hpeek =>
      split
      case isTrue hev =>
        split
        case h_1 key item lru hpop =>
          obtain ⟨s₁, hrm, hs₁⟩ := remove_run_of_pop hs (LruCache.pop_of_popLru hpop)
          have hl : s₁.lru = lru := by
            simpa [hrm] using (State.remove_run_state key item { s with lru }).1
          have hlen := LruCache.len_popLru hpop
          rw [run_bind_of_ok (run_set _ _), run_bind_of_ok hrm]
          refine Post.mono (fun _ s' ⟨hs', ⟨n, hn⟩, hset⟩ => ⟨hs', ⟨n + 1, ?_⟩, hset⟩) (fun _ _ h => h)
            (evictLoop_post fuel s₁ hs₁ (by rw [hl]; omega))
          rw [hn, hl, LruCache.popLru_eq_some.mp hpop, List.drop_succ_cons]
        case h_2 hnone =>
          obtain ⟨_, hpop⟩ := LruCache.popLru_of_peekLru hpeek
          exact (hnone _ _ _ hpop).elim
      case isFalse hev =>
        refine ⟨hs, ⟨0, rfl⟩, fun e he => ?_⟩
        rw [hpeek, Option.mem_some_iff] at he
        subst he
        simpa using hev
    case h_2 hpeek => exact ⟨hs, ⟨0, rfl⟩, fun e he => (hpeek e.1 e.2 he).elim⟩

theorem evictItems_post (hs : s.Accounted) :
    Post (fun _ s' => s'.Accounted ∧ (∃ n, s'.lru.entries = s.lru.entries.drop n) ∧
        ∀ e ∈ s.lru.peekLru, Settled m now (m.evictLimit (m.shouldEvict now s.lru.len e.2 s.sumStoreSize m.maxBytes)) s')
      (fun _ _ => False) ((m.evictItems now).run s) := by
  simp only [evictItems, run_bind, run_getThe]
  rcases hp : s.lru.peekLru with _ | ⟨key₀, peekEntry⟩
  case none => exact ⟨hs, ⟨0, rfl⟩, fun e he => by cases he⟩
  case some =>
    refine Post.mono (fun _ s' ⟨hs', hdrop, hset⟩ => ⟨hs', hdrop, fun e he => ?_⟩) (fun _ _ h => h)
      (evictLoop_post _ s hs le_rfl)
    rw [Option.mem_some_iff] at he
    subst he
    exact hset

omit [LinearOrder K] [LenEntry T] in
theorem shouldEvict_of_le {lruLen sumStoreSize : Nat} {e : EvictionItem T} (h0 : maxBytes ≠ 0)
    (hle : maxBytes ≤ sumStoreSize) : m.shouldEvict now lruLen e sumStoreSize maxBytes = true := by
  simp [shouldEvict, h0, hle]

theorem evictItems_bounded (hs : s.Accounted) :
    Post (fun _ s' => s'.Accounted ∧ (m.maxCount ≠ 0 → s'.lru.len ≤ m.maxCount) ∧
        (m.evictBytes < m.maxBytes → s'.sumStoreSize < m.maxBytes ∧
          (m.maxBytes ≤ s.sumStoreSize → s'.sumStoreSize < m.maxBytes - m.evictBytes)))
      (fun _ _ => False) ((m.evictItems now).run s) := by
  refine Post.mono (fun _ s' ⟨hs', ⟨n, hn⟩, hset⟩ => ?_) (fun _ _ h => h) (evictItems_post hs)
  cases hp : s.lru.peekLru
  case none =>
    have hnil : s.lru.entries = [] := by simpa [LruCache.peekLru] using hp
    have hzero : s.sumStoreSize = 0 := by
      rw [show s.sumStoreSize = s.lru.sumBy itemLen from hs, LruCache.sumBy, hnil]
      rfl
    have hset' : Settled m now m.maxBytes s' := settled_of_entries_nil (by rw [hn, hnil, List.drop_nil])
    exact ⟨hs', hset'.len_le, fun hlt => ⟨hset'.sumStoreSize_lt hs' (by omega), fun hover => by omega⟩⟩
  case some e =>
    have hset := hset e hp
    refine ⟨hs', hset.len_le, fun hlt => ⟨?_, fun hover => ?_⟩⟩
    all_goals obtain ⟨hpos, hle, hwm⟩ := evictLimit_of_lt (m.shouldEvict now s.lru.len e.2 s.sumStoreSize m.maxBytes) hlt
    case refine_1 => exact Nat.lt_of_lt_of_le (hset.sumStoreSize_lt hs' hpos.ne') hle
    case refine_2 =>
      have hdue : m.shouldEvict now s.lru.len e.2 s.sumStoreSize m.maxBytes = true :=
        shouldEvict_of_le (by omega) hover
      rw [← hwm hdue]
      exact hset.sumStoreSize_lt hs' hpos.ne'

-- What an insert leaves: the counter accounted, the count within `max_count`, and, when
-- `evict_bytes < max_bytes`, the size below `max_bytes`.
def WithinLimits (m : EvictingMap) (s : State K T) : Prop :=
  s.Accounted ∧ (m.maxCount ≠ 0 → s.lru.len ≤ m.maxCount) ∧
    (m.evictBytes < m.maxBytes → s.sumStoreSize < m.maxBytes)

theorem insertStep_withinLimits (secondsSinceAnchor : Int32) (key : K) (data : T) (hs : s.Accounted) :
    Post (fun _ s' => WithinLimits m s') (fun _ _ => False)
      ((m.insertStep now secondsSinceAnchor key data).run s) := by
  obtain ⟨old, s₁, hput, hsum⟩ := put_run_accounted key ⟨secondsSinceAnchor, data⟩ hs
  simp only [insertStep]
  rw [run_bind_of_ok hput, run_bind_of_ok (run_modify _ _)]
  exact Post.bind (evictItems_bounded hsum) fun _ _ ⟨hs', hc, hb⟩ => ⟨hs', hc, fun h => (hb h).1⟩

theorem innerInsertMany_withinLimits (secondsSinceAnchor : Int32) :
    ∀ (inserts : List (K × T)) (s : State K T), s.Accounted → inserts ≠ [] →
      Post (fun _ s' => WithinLimits m s') (fun _ _ => False)
        ((m.innerInsertMany now secondsSinceAnchor inserts).run s)
  | [], _, _, hne => (hne rfl).elim
  | (key, data) :: inserts, s, hs, _ => by
    simp only [innerInsertMany]
    refine Post.bind (insertStep_withinLimits secondsSinceAnchor key data hs) fun _ s₁ h₁ => ?_
    cases inserts
    case nil => exact h₁
    case cons insert inserts =>
      exact Post.bind (innerInsertMany_withinLimits secondsSinceAnchor _ s₁ h₁.1 (List.cons_ne_nil _ _))
        fun _ _ h => h

-- The calls that insert: `insert`, `insert_with_time`, and `insert_many` of at least one entry.
def Op.Inserts : Op K T → Prop
  | .insert .. => True
  | .insertWithTime .. => True
  | .insertMany inserts => inserts ≠ []
  | _ => False

theorem insert_withinLimits (calls : List (Nat × Op K T)) (now : Nat) (op : Op K T) (hop : op.Inserts) :
    ∃ s', (op.exec m now).run (m.run calls) = .ok () s' ∧ WithinLimits m s' := by
  have hs : (m.run calls).Accounted := accounted_invariant.run rfl calls
  have hpost : Post (fun _ s' => WithinLimits m s') (fun _ _ => False) ((op.exec m now).run (m.run calls)) := by
    cases op
    case insert key data =>
      refine (Post.map ?_).mono (fun _ _ ⟨_, _, h⟩ => h) fun _ _ h => h
      exact Post.bind (innerInsertMany_withinLimits _ [(key, data)] _ hs (List.cons_ne_nil _ _)) fun _ _ h => h
    case insertWithTime key data secs =>
      refine (Post.map ?_).mono (fun _ _ ⟨_, _, h⟩ => h) fun _ _ h => h
      exact Post.bind (innerInsertMany_withinLimits secs [(key, data)] _ hs (List.cons_ne_nil _ _)) fun _ _ h => h
    case insertMany inserts =>
      have hne : inserts.isEmpty = false := List.isEmpty_eq_false_iff.mpr hop
      refine (Post.map ?_).mono (fun _ _ ⟨_, _, h⟩ => h) fun _ _ h => h
      rw [insertMany, if_neg (by simp [hne])]
      exact innerInsertMany_withinLimits _ inserts _ hs hop
    all_goals exact hop.elim
  obtain ⟨_, s', hrun, hw⟩ := hpost.exists_ok
  exact ⟨s', hrun, hw⟩

-- Without `evict_bytes < max_bytes` the size bound fails: a memory store with `max_bytes` and
-- `evict_bytes` both 10 takes two entries of 6 bytes and keeps both. The eviction due on the second
-- insert runs with the low watermark `0`, which `should_evict` reads as no size limit.
theorem insert_keeps_store_over_max_bytes :
    ∃ s : State Nat BytesWrapper,
      (MemoryStore.new ⟨some ⟨10, 10, 0, 0⟩⟩).evictingMap.run
          [(0, .insert 1 ⟨List.replicate 6 0⟩), (0, .insert 2 ⟨List.replicate 6 0⟩)] = s ∧
        (MemoryStore.new ⟨some ⟨10, 10, 0, 0⟩⟩).evictingMap.maxBytes ≤ s.sumStoreSize ∧
        s.sumStoreSize = 12 ∧ s.lru.keys = [1, 2] := by
  refine ⟨_, rfl, ?_, ?_, ?_⟩ <;> decide +kernel

end NativeLink.EvictingMap
