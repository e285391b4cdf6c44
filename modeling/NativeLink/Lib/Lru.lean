import Mathlib

-- An unbounded least-recently-used cache with the interface of the `lru` crate's `LruCache`.
-- Entries are kept in recency order, least recently used first, so that `popLru` takes the head
-- and every promotion moves an entry to the back. The keys are distinct, which the structure
-- carries as a field.

namespace Lru

structure LruCache (K V : Type*) where
  entries : List (K × V)
  nodup : (entries.map Prod.fst).Nodup

namespace LruCache

variable {K V : Type*} {c c' : LruCache K V} {k j : K} {v : V} {e : K × V}

def unbounded : LruCache K V :=
  ⟨[], List.nodup_nil⟩

def keys (c : LruCache K V) : List K :=
  c.entries.map Prod.fst

def len (c : LruCache K V) : Nat :=
  c.entries.length

-- Iteration order of `LruCache::iter`: most recently used first.
def iter (c : LruCache K V) : List (K × V) :=
  c.entries.reverse

def peekLru (c : LruCache K V) : Option (K × V) :=
  c.entries.head?

def popLru (c : LruCache K V) : Option ((K × V) × LruCache K V) :=
  match h : c.entries with
  | []      => none
  | e :: es =>
    have hn : (e.1 :: es.map Prod.fst).Nodup := by simpa [h] using c.nodup
    some (e, ⟨es, (List.nodup_cons.mp hn).2⟩)

def pushBack (c : LruCache K V) (k : K) (v : V) (h : k ∉ c.keys) : LruCache K V where
  entries := c.entries ++ [(k, v)]
  nodup := by
    rw [List.map_append, List.nodup_append]
    refine ⟨c.nodup, List.nodup_singleton _, ?_⟩
    rintro a ha b hb rfl
    rw [List.mem_singleton.mp hb] at ha
    exact h ha

def sumBy (c : LruCache K V) (f : V → Nat) : Nat :=
  (c.entries.map (f ·.2)).sum

theorem ext (h : c.entries = c'.entries) : c = c' := by
  cases c
  cases c'
  cases h
  rfl

theorem popLru_eq_some : c.popLru = some (e, c') ↔ c.entries = e :: c'.entries := by
  unfold popLru
  split
  case h_1 h => simp [h]
  case h_2 e' es h =>
    simp only [h, Option.some.injEq, Prod.mk.injEq, List.cons.injEq]
    constructor
    case mp => rintro ⟨rfl, rfl⟩; exact ⟨rfl, rfl⟩
    case mpr =>
      rintro ⟨rfl, hes⟩
      exact ⟨rfl, by cases c'; simp_all⟩

theorem popLru_eq_none : c.popLru = none ↔ c.entries = [] := by
  unfold popLru
  split <;> simp_all

theorem peekLru_eq : c.peekLru = c.popLru.map Prod.fst := by
  unfold peekLru popLru
  split <;> simp_all

theorem popLru_of_peekLru (h : c.peekLru = some e) : ∃ c', c.popLru = some (e, c') := by
  rw [peekLru_eq] at h
  obtain ⟨⟨e', c'⟩, hpop, rfl⟩ := Option.map_eq_some_iff.mp h
  exact ⟨c', hpop⟩

theorem len_popLru (h : c.popLru = some (e, c')) : c'.len + 1 = c.len := by
  simp [len, popLru_eq_some.mp h]

@[simp] theorem keys_pushBack (h : k ∉ c.keys) : (c.pushBack k v h).keys = c.keys ++ [k] := by
  simp [keys, pushBack]

@[simp] theorem len_pushBack (h : k ∉ c.keys) : (c.pushBack k v h).len = c.len + 1 := by
  simp [len, pushBack]

section sumBy

variable {f : V → Nat}

@[simp] theorem sumBy_unbounded : (unbounded : LruCache K V).sumBy f = 0 :=
  rfl

@[simp] theorem sumBy_pushBack (h : k ∉ c.keys) : (c.pushBack k v h).sumBy f = c.sumBy f + f v := by
  simp [sumBy, pushBack]

theorem sumBy_popLru_add (h : c.popLru = some (e, c')) : c'.sumBy f + f e.2 = c.sumBy f := by
  simp [sumBy, popLru_eq_some.mp h, Nat.add_comm]

end sumBy

variable [DecidableEq K]

def peek (c : LruCache K V) (k : K) : Option V :=
  c.entries.lookup k

def contains (c : LruCache K V) (k : K) : Bool :=
  (c.peek k).isSome

def erase (c : LruCache K V) (k : K) : LruCache K V where
  entries := c.entries.filter (·.1 != k)
  nodup := c.nodup.sublist (List.filter_sublist.map _)

theorem not_mem_keys_erase : k ∉ (c.erase k).keys := by
  simp [keys, erase]

def put (c : LruCache K V) (k : K) (v : V) : Option V × LruCache K V :=
  (c.peek k, (c.erase k).pushBack k v not_mem_keys_erase)

def promote (c : LruCache K V) (k : K) : LruCache K V :=
  match c.peek k with
  | none   => c
  | some v => (c.erase k).pushBack k v not_mem_keys_erase

def get (c : LruCache K V) (k : K) : Option V × LruCache K V :=
  (c.peek k, c.promote k)

def modify (c : LruCache K V) (k : K) (f : V → V) : LruCache K V where
  entries := c.entries.map fun e => if e.1 = k then (e.1, f e.2) else e
  nodup := by
    have h : (c.entries.map fun e => if e.1 = k then (e.1, f e.2) else e).map Prod.fst = c.keys := by
      simp only [List.map_map, keys]
      congr 1
      funext e
      by_cases h : e.1 = k <;> simp [h]
    exact h ▸ c.nodup

def pop (c : LruCache K V) (k : K) : Option V × LruCache K V :=
  (c.peek k, c.erase k)

theorem lookup_eq_none_of_not_mem {l : List (K × V)} (h : k ∉ l.map Prod.fst) :
    l.lookup k = none := by
  refine List.lookup_eq_none_iff.mpr fun e he => bne_iff_ne.mpr fun hk => h ?_
  exact List.mem_map.mpr ⟨e, he, hk.symm⟩

theorem filter_eq_self_of_not_mem {l : List (K × V)} (h : k ∉ l.map Prod.fst) :
    l.filter (·.1 != k) = l := by
  refine List.filter_eq_self.mpr fun e he => bne_iff_ne.mpr fun hk => h ?_
  exact List.mem_map.mpr ⟨e, he, hk⟩

theorem sum_filter_add_lookup (f : V → Nat) {l : List (K × V)} (hn : (l.map Prod.fst).Nodup) :
    ((l.filter (·.1 != k)).map (f ·.2)).sum + (l.lookup k).elim 0 f = (l.map (f ·.2)).sum := by
  induction l
  case nil => rfl
  case cons e l ih =>
    obtain ⟨k', v'⟩ := e
    have ⟨he, hl⟩ := List.nodup_cons.mp hn
    by_cases hk : k = k'
    case pos =>
      subst hk
      simp [filter_eq_self_of_not_mem he]
      omega
    case neg =>
      have := ih hl
      simp [List.lookup_cons, beq_false_of_ne hk, Ne.symm hk]
      omega

theorem lookup_filter_ne {l : List (K × V)} (h : j ≠ k) :
    (l.filter (·.1 != k)).lookup j = l.lookup j := by
  induction l
  case nil => rfl
  case cons e l ih =>
    obtain ⟨k', v'⟩ := e
    by_cases he : k' = k
    case pos =>
      subst he
      simp [List.lookup_cons, beq_false_of_ne h, ih]
    case neg => simp [he, List.lookup_cons, ih]

theorem mem_of_lookup_eq_some {l : List (K × V)} (h : l.lookup k = some v) : (k, v) ∈ l := by
  induction l
  case nil => cases h
  case cons e l ih =>
    obtain ⟨k', v'⟩ := e
    by_cases hk : k = k'
    case pos =>
      subst hk
      simp only [List.lookup_cons, beq_self_eq_true, Option.some.injEq] at h
      subst h
      exact List.mem_cons_self
    case neg =>
      simp only [List.lookup_cons, beq_false_of_ne hk] at h
      exact List.mem_cons_of_mem _ (ih h)

theorem mem_entries_of_peek (h : c.peek k = some v) : (k, v) ∈ c.entries :=
  mem_of_lookup_eq_some h

theorem mem_keys_iff_peek_isSome : k ∈ c.keys ↔ (c.peek k).isSome := by
  simp [keys, peek, List.lookup_isSome_iff, List.mem_map]

theorem mem_keys_iff_exists_peek : k ∈ c.keys ↔ ∃ v, c.peek k = some v := by
  rw [mem_keys_iff_peek_isSome, Option.isSome_iff_exists]

theorem peek_eq_none_iff : c.peek k = none ↔ k ∉ c.keys := by
  rw [mem_keys_iff_peek_isSome, Option.not_isSome_iff_eq_none]

@[simp] theorem peek_unbounded : (unbounded : LruCache K V).peek k = none :=
  rfl

theorem peek_erase : (c.erase k).peek j = if j = k then none else c.peek j := by
  split
  case isTrue h => exact h ▸ lookup_eq_none_of_not_mem not_mem_keys_erase
  case isFalse h => exact lookup_filter_ne h

theorem peek_pushBack (h : k ∉ c.keys) :
    (c.pushBack k v h).peek j = if j = k then some v else c.peek j := by
  have hn : c.entries.lookup k = none := lookup_eq_none_of_not_mem h
  by_cases hj : j = k
  case pos =>
    subst hj
    simp [peek, pushBack, List.lookup_append, hn]
  case neg =>
    have hb : (j == k) = false := beq_false_of_ne hj
    simp [peek, pushBack, List.lookup_append, List.lookup_cons, hb, hj]

@[simp] theorem put_fst : (c.put k v).1 = c.peek k :=
  rfl

theorem peek_put : (c.put k v).2.peek j = if j = k then some v else c.peek j := by
  by_cases hj : j = k <;> simp [put, peek_pushBack, peek_erase, hj]

theorem peek_promote : (c.promote k).peek j = c.peek j := by
  unfold promote
  split
  case h_1 => rfl
  case h_2 v hv =>
    rw [peek_pushBack, peek_erase]
    by_cases hj : j = k <;> simp [hj, hv]

@[simp] theorem get_fst : (c.get k).1 = c.peek k :=
  rfl

@[simp] theorem get_snd : (c.get k).2 = c.promote k :=
  rfl

theorem peek_modify {g : V → V} :
    (c.modify k g).peek j = if j = k then (c.peek j).map g else c.peek j := by
  simp only [peek, modify]
  induction c.entries
  case nil => simp
  case cons e l ih =>
    obtain ⟨k', v'⟩ := e
    by_cases hk : k' = k
    case pos =>
      subst hk
      by_cases hj : j = k' <;> simp_all [List.lookup_cons, beq_false_of_ne]
    case neg =>
      by_cases hj : j = k' <;> simp_all [List.lookup_cons, beq_false_of_ne]

@[simp] theorem pop_fst : (c.pop k).1 = c.peek k :=
  rfl

theorem pop_eq_some {c' : LruCache K V} : c.pop k = (some v, c') ↔ c.peek k = some v ∧ c' = c.erase k := by
  simp [pop, eq_comm]

theorem peek_pop : (c.pop k).2.peek j = if j = k then none else c.peek j :=
  peek_erase

theorem mem_keys_erase : j ∈ (c.erase k).keys ↔ j ∈ c.keys ∧ j ≠ k := by
  by_cases hj : j = k <;> simp [mem_keys_iff_peek_isSome, peek_erase, hj]

theorem mem_keys_put : j ∈ (c.put k v).2.keys ↔ j = k ∨ j ∈ c.keys := by
  by_cases hj : j = k <;> simp [mem_keys_iff_peek_isSome, peek_put, hj]

theorem mem_keys_promote : j ∈ (c.promote k).keys ↔ j ∈ c.keys := by
  simp only [mem_keys_iff_peek_isSome, peek_promote]

theorem mem_keys_modify {g : V → V} : j ∈ (c.modify k g).keys ↔ j ∈ c.keys := by
  by_cases hj : j = k <;> simp [mem_keys_iff_peek_isSome, peek_modify, hj]

theorem keys_modify {g : V → V} : (c.modify k g).keys = c.keys := by
  simp only [keys, modify, List.map_map]
  congr 1
  funext e
  by_cases h : e.1 = k <;> simp [h]

theorem popLru_peek (h : c.popLru = some (e, c')) :
    c.peek e.1 = some e.2 ∧ ∀ j, c'.peek j = if j = e.1 then none else c.peek j := by
  obtain ⟨k₀, v₀⟩ := e
  have he := popLru_eq_some.mp h
  have hn := c.nodup
  rw [he] at hn
  obtain ⟨hk, -⟩ := List.nodup_cons.mp hn
  refine ⟨by simp [peek, he], fun j => ?_⟩
  by_cases hj : j = k₀
  case pos =>
    subst hj
    rw [if_pos rfl]
    exact lookup_eq_none_of_not_mem hk
  case neg => simp [peek, he, List.lookup_cons, beq_false_of_ne hj, hj]

theorem pop_of_popLru {k₀ : K} {v₀ : V} (h : c.popLru = some ((k₀, v₀), c')) :
    c.pop k₀ = (some v₀, c') := by
  have he := popLru_eq_some.mp h
  have hn := c.nodup
  rw [he] at hn
  obtain ⟨hk, -⟩ := List.nodup_cons.mp hn
  refine pop_eq_some.mpr ⟨(popLru_peek h).1, ext ?_⟩
  simp [erase, he, filter_eq_self_of_not_mem hk]

section sumBy

variable {f : V → Nat}

theorem sumBy_erase_add : (c.erase k).sumBy f + (c.peek k).elim 0 f = c.sumBy f :=
  sum_filter_add_lookup f c.nodup

theorem sumBy_put_add : (c.put k v).2.sumBy f + (c.peek k).elim 0 f = c.sumBy f + f v := by
  have := sumBy_erase_add (c := c) (k := k) (f := f)
  simp only [put, sumBy_pushBack]
  omega

@[simp] theorem sumBy_promote : (c.promote k).sumBy f = c.sumBy f := by
  unfold promote
  split
  case h_1 => rfl
  case h_2 v hv =>
    have := sumBy_erase_add (c := c) (k := k) (f := f)
    simp only [sumBy_pushBack]
    simp only [hv, Option.elim_some] at this
    exact this

theorem sumBy_modify {g : V → V} (hg : ∀ v, f (g v) = f v) : (c.modify k g).sumBy f = c.sumBy f := by
  simp only [sumBy, modify, List.map_map]
  congr 1
  refine List.map_congr_left fun e _ => ?_
  by_cases h : e.1 = k <;> simp [h, hg]

theorem le_sumBy_of_peek (h : c.peek k = some v) : f v ≤ c.sumBy f := by
  have := sumBy_erase_add (c := c) (k := k) (f := f)
  simp only [h, Option.elim_some] at this
  omega

end sumBy

end LruCache
end Lru
