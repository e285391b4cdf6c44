import NativeLink.Lib.Bound
import Mathlib

-- Model of `nativelink-util/src/chunked_stream.rs`. A `ChunkedStream` yields the items of a range
-- chunk by chunk: with its buffer empty, it calls `chunk_fn` on the range it holds, which answers
-- the items of a chunk with the range left after them, or `None` at the end. The future `chunk_fn`
-- returns reads the collection when it runs, and other tasks may change the collection between
-- two chunks; so a poll takes what `chunk_fn` answers at that time, and a run of polls takes any
-- sequence of states of the collection.

namespace NativeLink

-- What a poll of a stream gives: an item or the end, or nothing yet.
inductive Poll (α : Type)
  | ready (a : α)
  | pending
  deriving DecidableEq, Repr

structure ChunkedStream (K T : Type) where
  buffer : List T
  startKey : Bound K
  endKey : Bound K
  -- the last chunk answered `None` or an error, and its future is spent
  ended : Bool

namespace ChunkedStream

variable {K T E σ : Type}

-- What `chunk_fn` answers for a range.
abbrev Answer (K T E : Type) := Except E (Option ((Bound K × Bound K) × List T))

-- `ChunkedStream::new`.
def new (startKey endKey : Bound K) : ChunkedStream K T :=
  ⟨[], startKey, endKey, false⟩

-- `poll_next`, where `chunk` is what `chunk_fn` answers when its future runs. A chunk that comes
-- back empty sends the loop round again, to a new call whose future waits its turn. A caller stops
-- at the end, and a poll after it answers the end again.
def pollNext (chunk : Bound K → Bound K → Answer K T E) (c : ChunkedStream K T) :
    Poll (Option (Except E T)) × ChunkedStream K T :=
  match c.buffer with
  | item :: buffer => (.ready (some (.ok item)), { c with buffer })
  | [] =>
    if c.ended then (.ready none, c)
    else
      match chunk c.startKey c.endKey with
      | .ok (some ((startKey, endKey), item :: buffer)) =>
        (.ready (some (.ok item)), ⟨buffer, startKey, endKey, false⟩)
      | .ok (some ((startKey, endKey), [])) => (.pending, ⟨[], startKey, endKey, false⟩)
      | .ok none => (.ready none, { c with ended := true })
      | .error e => (.ready (some (.error e)), { c with ended := true })

-- Polls one after another, each while the collection is in the state of `envs` at that time.
def run (chunk : σ → Bound K → Bound K → Answer K T E) :
    List σ → ChunkedStream K T → List (Poll (Option (Except E T))) × ChunkedStream K T
  | [], c => ([], c)
  | env :: envs, c =>
    let (p, c) := pollNext (chunk env) c
    let (ps, c) := run chunk envs c
    (p :: ps, c)

-- The items a sequence of polls yields.
def yielded (ps : List (Poll (Option (Except E T)))) : List T :=
  ps.filterMap fun
    | .ready (some (.ok item)) => some item
    | _ => none

@[simp] theorem yielded_nil : yielded ([] : List (Poll (Option (Except E T)))) = [] :=
  rfl

theorem yielded_append (ps qs : List (Poll (Option (Except E T)))) :
    yielded (ps ++ qs) = yielded ps ++ yielded qs :=
  List.filterMap_append

theorem yielded_cons (p : Poll (Option (Except E T))) (ps : List (Poll (Option (Except E T)))) :
    yielded (p :: ps) = yielded [p] ++ yielded ps :=
  yielded_append [p] ps

@[simp] theorem run_nil (chunk : σ → Bound K → Bound K → Answer K T E) (c : ChunkedStream K T) :
    run chunk [] c = ([], c) :=
  rfl

theorem run_cons (chunk : σ → Bound K → Bound K → Answer K T E) (env : σ) (envs : List σ)
    (c : ChunkedStream K T) :
    run chunk (env :: envs) c =
      ((pollNext (chunk env) c).1 :: (run chunk envs (pollNext (chunk env) c).2).1,
        (run chunk envs (pollNext (chunk env) c).2).2) :=
  rfl

theorem run_append (chunk : σ → Bound K → Bound K → Answer K T E) (envs envs' : List σ) (c : ChunkedStream K T) :
    run chunk (envs ++ envs') c =
      ((run chunk envs c).1 ++ (run chunk envs' (run chunk envs c).2).1, (run chunk envs' (run chunk envs c).2).2) := by
  induction envs generalizing c with
  | nil => rfl
  | cons env envs ih => simp [run_cons, ih]

theorem run_buffer (chunk : σ → Bound K → Bound K → Answer K T E) (env : σ) (items : List T)
    (startKey endKey : Bound K) (ended : Bool) :
    run chunk (List.replicate items.length env) ⟨items, startKey, endKey, ended⟩ =
      (items.map fun item => .ready (some (.ok item)), ⟨[], startKey, endKey, ended⟩) := by
  induction items with
  | nil => rfl
  | cons item items ih =>
    rw [List.length_cons, List.replicate_succ, run_cons]
    simp [pollNext, ih]

/-! ## Ascending chunks -/

section Ascending

variable [LinearOrder K] (key : T → K)

-- What an ascending `chunk_fn` answers for the range `(lo, hi)`: items in strictly ascending order
-- of their keys inside the range, at least one, and the range after the last of them.
def AscAnswer (lo hi : Bound K) : Option ((Bound K × Bound K) × List T) → Prop
  | none => True
  | some ((lo', hi'), items) =>
    ∃ init last, items = init ++ [last] ∧ lo' = .excluded (key last) ∧ hi' = hi ∧
      (items.map key).Pairwise (· < ·) ∧ ∀ x ∈ items, Bound.contains lo hi (key x) = true

-- The stream has yielded `ys` of the range `(lo₀, hi₀)`. Those and its buffer come in strictly
-- ascending order inside the range, and the range it holds lies inside it, past all of them.
structure Ascending (lo₀ hi₀ : Bound K) (ys : List T) (c : ChunkedStream K T) : Prop where
  sorted : ((ys ++ c.buffer).map key).Pairwise (· < ·)
  within : ∀ x ∈ ys ++ c.buffer, Bound.contains lo₀ hi₀ (key x) = true
  rest : ∀ k, Bound.contains c.startKey c.endKey k = true →
    Bound.contains lo₀ hi₀ k = true ∧ ∀ x ∈ ys ++ c.buffer, key x < k

variable {key} {lo₀ hi₀ : Bound K} {ys : List T} {c : ChunkedStream K T}

theorem ascending_new (lo₀ hi₀ : Bound K) : Ascending key lo₀ hi₀ [] (new lo₀ hi₀ : ChunkedStream K T) :=
  ⟨List.Pairwise.nil, fun _ hx => absurd hx List.not_mem_nil, fun _ hk => ⟨hk, fun _ hx => absurd hx List.not_mem_nil⟩⟩

theorem AscAnswer.of_last {lo hi : Bound K} {items : List T} {last : T} (hl : items.getLast? = some last)
    (hsorted : (items.map key).Pairwise (· < ·)) (hin : ∀ x ∈ items, Bound.contains lo hi (key x) = true) :
    AscAnswer key lo hi (some ((.excluded (key last), hi), items)) := by
  obtain ⟨init, hinit⟩ := List.getLast?_eq_some_iff.mp hl
  exact ⟨init, last, hinit, rfl, rfl, hsorted, hin⟩

theorem le_last_of_mem {init : List T} {last : T} (hs : ((init ++ [last]).map key).Pairwise (· < ·))
    {x : T} (hx : x ∈ init ++ [last]) : key x ≤ key last := by
  rcases List.mem_append.mp hx with hx | hx
  case inl =>
    rw [List.map_append, List.pairwise_append] at hs
    exact le_of_lt (hs.2.2 _ (List.mem_map_of_mem hx) _ (by simp))
  case inr =>
    rw [List.mem_singleton.mp hx]

theorem Ascending.chunk {init : List T} {last : T} (h : Ascending key lo₀ hi₀ ys c) (hb : c.buffer = [])
    (hs : ((init ++ [last]).map key).Pairwise (· < ·))
    (hin : ∀ x ∈ init ++ [last], Bound.contains c.startKey c.endKey (key x) = true) :
    ((ys ++ (init ++ [last])).map key).Pairwise (· < ·) ∧
      (∀ x ∈ ys ++ (init ++ [last]), Bound.contains lo₀ hi₀ (key x) = true) ∧
      ∀ k, Bound.contains (.excluded (key last)) c.endKey k = true →
        Bound.contains lo₀ hi₀ k = true ∧ ∀ x ∈ ys ++ (init ++ [last]), key x < k := by
  have hys : (ys.map key).Pairwise (· < ·) := by simpa [hb] using h.sorted
  have hyw : ∀ y ∈ ys, Bound.contains lo₀ hi₀ (key y) = true := by simpa [hb] using h.within
  have hrest : ∀ k, Bound.contains c.startKey c.endKey k = true →
      Bound.contains lo₀ hi₀ k = true ∧ ∀ y ∈ ys, key y < k := by simpa [hb] using h.rest
  have hafter : ∀ x ∈ init ++ [last], Bound.contains lo₀ hi₀ (key x) = true ∧ ∀ y ∈ ys, key y < key x :=
    fun x hx => hrest _ (hin x hx)
  refine ⟨?_, ?_, fun k hk => ?_⟩
  case refine_1 =>
    rw [List.map_append, List.pairwise_append]
    refine ⟨hys, hs, ?_⟩
    intro a ha b hb
    obtain ⟨y, hy, rfl⟩ := List.mem_map.mp ha
    obtain ⟨x, hx, rfl⟩ := List.mem_map.mp hb
    exact (hafter x hx).2 y hy
  case refine_2 =>
    intro x hx
    rcases List.mem_append.mp hx with hx | hx
    case inl => exact hyw x hx
    case inr => exact (hafter x hx).1
  case refine_3 =>
    have hlast : Bound.contains c.startKey c.endKey (key last) = true := hin last (by simp)
    simp only [Bound.contains, Bound.aboveStart, Bool.and_eq_true, decide_eq_true_eq] at hk hlast
    have hk' : Bound.contains c.startKey c.endKey k = true := by
      simp only [Bound.contains, Bool.and_eq_true]
      exact ⟨Bound.aboveStart_of_le hlast.1 (le_of_lt hk.1), hk.2⟩
    obtain ⟨hrange, hbefore⟩ := hrest k hk'
    refine ⟨hrange, fun x hx => ?_⟩
    rcases List.mem_append.mp hx with hx | hx
    case inl => exact hbefore x hx
    case inr => exact lt_of_le_of_lt (le_last_of_mem hs hx) hk.1

theorem Ascending.pollNext {chunk : Bound K → Bound K → Answer K T E}
    (hchunk : ∀ r, chunk c.startKey c.endKey = .ok r → AscAnswer key c.startKey c.endKey r)
    (h : Ascending key lo₀ hi₀ ys c) :
    Ascending key lo₀ hi₀ (ys ++ yielded [(pollNext chunk c).1]) (pollNext chunk c).2 := by
  unfold ChunkedStream.pollNext
  split
  case h_1 item buffer hb =>
    have hl : ys ++ [item] ++ buffer = ys ++ c.buffer := by simp [hb]
    exact ⟨by simpa [yielded, hl] using h.sorted, by simpa [yielded, hl] using h.within,
      by simpa [yielded, hl] using h.rest⟩
  case h_2 hb =>
    split
    case isTrue => simpa [yielded] using h
    case isFalse =>
      split
      case h_1 startKey endKey item buffer hr =>
        obtain ⟨init, last, hitems, rfl, rfl, hs, hin⟩ := hchunk _ hr
        obtain ⟨hsorted, hwithin, hrest⟩ := h.chunk hb (hitems ▸ hs) (hitems ▸ hin)
        rw [← hitems] at hsorted hwithin hrest
        have hl : ys ++ [item] ++ buffer = ys ++ item :: buffer := by simp
        exact ⟨by simpa [yielded, hl] using hsorted, by simpa [yielded, hl] using hwithin,
          by simpa [yielded, hl] using hrest⟩
      case h_2 startKey endKey hr =>
        obtain ⟨init, last, hitems, -⟩ := hchunk _ hr
        simp at hitems
      case h_3 => exact ⟨by simpa [yielded] using h.sorted, by simpa [yielded] using h.within,
        by simpa [yielded] using h.rest⟩
      case h_4 => exact ⟨by simpa [yielded] using h.sorted, by simpa [yielded] using h.within,
        by simpa [yielded] using h.rest⟩

theorem Ascending.run {chunk : σ → Bound K → Bound K → Answer K T E}
    (hchunk : ∀ env lo hi r, chunk env lo hi = .ok r → AscAnswer key lo hi r) (envs : List σ)
    (h : Ascending key lo₀ hi₀ ys c) :
    Ascending key lo₀ hi₀ (ys ++ yielded (run chunk envs c).1) (run chunk envs c).2 := by
  induction envs generalizing ys c with
  | nil => simpa using h
  | cons env envs ih =>
    have h' : Ascending key lo₀ hi₀ (ys ++ yielded [(ChunkedStream.pollNext (chunk env) c).1])
        (ChunkedStream.pollNext (chunk env) c).2 :=
      h.pollNext (hchunk env _ _)
    rw [run_cons, yielded_cons, ← List.append_assoc]
    exact ih h'

theorem yielded_ascending {chunk : σ → Bound K → Bound K → Answer K T E}
    (hchunk : ∀ env lo hi r, chunk env lo hi = .ok r → AscAnswer key lo hi r) (lo₀ hi₀ : Bound K) (envs : List σ) :
    ((yielded (run chunk envs (new lo₀ hi₀)).1).map key).Pairwise (· < ·) ∧
      ∀ y ∈ yielded (run chunk envs (new lo₀ hi₀)).1, Bound.contains lo₀ hi₀ (key y) = true := by
  have h0 : Ascending key lo₀ hi₀ [] (new lo₀ hi₀ : ChunkedStream K T) := ascending_new lo₀ hi₀
  have h := h0.run hchunk envs
  rw [List.nil_append] at h
  refine ⟨?_, fun y hy => h.within y (List.mem_append_left _ hy)⟩
  have hs := h.sorted
  rw [List.map_append, List.pairwise_append] at hs
  exact hs.1

end Ascending

/-! ## Descending chunks, as ascending ones in the reversed order -/

section Dual

-- The stream over the reversed order, where the ends of its range swap.
def dual (c : ChunkedStream K T) : ChunkedStream Kᵒᵈ T :=
  ⟨c.buffer, c.endKey.dual, c.startKey.dual, c.ended⟩

-- A chunk's answer over the reversed order.
def dualAnswer (r : Option ((Bound K × Bound K) × List T)) : Option ((Bound Kᵒᵈ × Bound Kᵒᵈ) × List T) :=
  r.map fun ((lo, hi), items) => ((hi.dual, lo.dual), items)

-- `chunk_fn` over the reversed order.
def dualChunk (chunk : Bound K → Bound K → Answer K T E) (lo hi : Bound Kᵒᵈ) : Answer Kᵒᵈ T E :=
  (chunk hi.ofDual lo.ofDual).map dualAnswer

theorem new_dual (lo hi : Bound K) : (new lo hi : ChunkedStream K T).dual = new hi.dual lo.dual :=
  rfl

theorem pollNext_dual (chunk : Bound K → Bound K → Answer K T E) (c : ChunkedStream K T) :
    pollNext (dualChunk chunk) c.dual = ((pollNext chunk c).1, (pollNext chunk c).2.dual) := by
  unfold pollNext
  cases hb : c.buffer with
  | cons item buffer => simp [dual, hb]
  | nil =>
    cases he : c.ended
    case true => simp [dual, hb, he]
    case false =>
      cases hr : chunk c.startKey c.endKey with
      | error e => simp [dual, dualChunk, hb, he, hr, Except.map]
      | ok r =>
        rcases r with _ | ⟨⟨lo, hi⟩, _ | ⟨item, buffer⟩⟩ <;>
          simp [dual, dualChunk, dualAnswer, hb, he, hr, Except.map]

theorem run_dual (chunk : σ → Bound K → Bound K → Answer K T E) (envs : List σ) (c : ChunkedStream K T) :
    run (fun env => dualChunk (chunk env)) envs c.dual = ((run chunk envs c).1, (run chunk envs c).2.dual) := by
  induction envs generalizing c with
  | nil => rfl
  | cons env envs ih => rw [run_cons, run_cons, pollNext_dual, ih]

variable [LinearOrder K] (key : T → K)

-- What a descending `chunk_fn` answers for the range `(lo, hi)`: items in strictly descending order
-- of their keys inside the range, at least one, and the range before the last of them.
def DescAnswer (lo hi : Bound K) : Option ((Bound K × Bound K) × List T) → Prop
  | none => True
  | some ((lo', hi'), items) =>
    ∃ init last, items = init ++ [last] ∧ lo' = lo ∧ hi' = .excluded (key last) ∧
      (items.map key).Pairwise (· > ·) ∧ ∀ x ∈ items, Bound.contains lo hi (key x) = true

variable {key}

theorem DescAnswer.dual {lo hi : Bound K} {r : Option ((Bound K × Bound K) × List T)} (h : DescAnswer key lo hi r) :
    AscAnswer (OrderDual.toDual ∘ key) hi.dual lo.dual (dualAnswer r) := by
  rcases r with _ | ⟨⟨lo', hi'⟩, items⟩
  case none => trivial
  case some =>
    obtain ⟨init, last, rfl, rfl, rfl, hs, hin⟩ := h
    refine ⟨init, last, rfl, rfl, rfl, ?_, fun x hx => ?_⟩
    · rw [List.pairwise_map] at hs ⊢
      exact hs
    · simpa [Bound.contains_dual] using hin x hx

theorem yielded_descending {chunk : σ → Bound K → Bound K → Answer K T E}
    (hchunk : ∀ env lo hi r, chunk env lo hi = .ok r → DescAnswer key lo hi r) (lo₀ hi₀ : Bound K) (envs : List σ) :
    ((yielded (run chunk envs (new lo₀ hi₀)).1).map key).Pairwise (· > ·) ∧
      ∀ y ∈ yielded (run chunk envs (new lo₀ hi₀)).1, Bound.contains lo₀ hi₀ (key y) = true := by
  have hdual : ∀ env lo hi r, dualChunk (chunk env) lo hi = .ok r → AscAnswer (OrderDual.toDual ∘ key) lo hi r := by
    intro env lo hi r hr
    cases hc : chunk env hi.ofDual lo.ofDual with
    | error e => simp [dualChunk, hc, Except.map] at hr
    | ok r' =>
      simp only [dualChunk, hc, Except.map, Except.ok.injEq] at hr
      subst hr
      simpa using (hchunk env _ _ r' hc).dual
  have h := yielded_ascending hdual hi₀.dual lo₀.dual envs
  rw [← new_dual, run_dual] at h
  refine ⟨by simpa [List.pairwise_map] using h.1, fun y hy => ?_⟩
  simpa [Bound.contains_dual] using h.2 y hy

end Dual

/-! ## A collection left as it is -/

section Exact

variable [LinearOrder K] (key : T → K)

-- The ascending answer for a collection whose items, in ascending order of their keys, are `items`:
-- those of the range, with the range after the last of them, or `None` when there are none.
def ascAnswer (items : List T) (lo hi : Bound K) : Option ((Bound K × Bound K) × List T) :=
  match (items.filter fun x => Bound.contains lo hi (key x)).getLast? with
  | none => none
  | some last => some ((.excluded (key last), hi), items.filter fun x => Bound.contains lo hi (key x))

-- The descending answer: those of the range from the last, with the range before the first of them.
def descAnswer (items : List T) (lo hi : Bound K) : Option ((Bound K × Bound K) × List T) :=
  match (items.filter fun x => Bound.contains lo hi (key x)).head? with
  | none => none
  | some first => some ((lo, .excluded (key first)), (items.filter fun x => Bound.contains lo hi (key x)).reverse)

variable {key}

theorem dualAnswer_descAnswer (items : List T) (lo hi : Bound K) :
    dualAnswer (descAnswer key items lo hi) = ascAnswer (OrderDual.toDual ∘ key) items.reverse hi.dual lo.dual := by
  have hf : (items.reverse.filter fun x => Bound.contains hi.dual lo.dual ((OrderDual.toDual ∘ key) x)) =
      (items.filter fun x => Bound.contains lo hi (key x)).reverse := by
    simp [List.filter_reverse, Bound.contains_dual]
  unfold descAnswer ascAnswer
  rw [hf, List.getLast?_reverse]
  cases (items.filter fun x => Bound.contains lo hi (key x)).head? <;> rfl

theorem filter_after_last {items : List T} (hsorted : (items.map key).Pairwise (· < ·)) {lo hi : Bound K} {last : T}
    (hlast : (items.filter fun x => Bound.contains lo hi (key x)).getLast? = some last) :
    (items.filter fun x => Bound.contains (.excluded (key last)) hi (key x)) = [] := by
  obtain ⟨init, hinit⟩ := List.getLast?_eq_some_iff.mp hlast
  have hs : ((init ++ [last]).map key).Pairwise (· < ·) := by
    rw [← hinit, List.pairwise_map]
    exact (List.pairwise_map.mp hsorted).filter _
  have hmem : last ∈ items.filter fun x => Bound.contains lo hi (key x) := by simp [hinit]
  have hin : Bound.contains lo hi (key last) = true := (List.mem_filter.mp hmem).2
  rw [List.filter_eq_nil_iff]
  intro x hx hafter
  simp only [Bound.contains, Bound.aboveStart, Bool.and_eq_true, decide_eq_true_eq] at hafter hin
  have hxin : x ∈ items.filter fun x => Bound.contains lo hi (key x) := by
    simp only [List.mem_filter, Bound.contains, Bool.and_eq_true]
    exact ⟨hx, Bound.aboveStart_of_le hin.1 (le_of_lt hafter.1), hafter.2⟩
  rw [hinit] at hxin
  exact absurd (le_last_of_mem hs hxin) (not_le.mpr hafter.1)

theorem run_ascAnswer {chunk : σ → Bound K → Bound K → Answer K T E} {env : σ} {items : List T}
    (hsorted : (items.map key).Pairwise (· < ·))
    (hchunk : ∀ lo hi, Bound.rangeValid lo hi = true → chunk env lo hi = .ok (ascAnswer key items lo hi))
    {lo₀ hi₀ : Bound K} (hv : Bound.rangeValid lo₀ hi₀ = true) :
    (run chunk (List.replicate ((items.filter fun x => Bound.contains lo₀ hi₀ (key x)).length + 1) env)
      (new lo₀ hi₀)).1 =
      (items.filter fun x => Bound.contains lo₀ hi₀ (key x)).map (fun item => .ready (some (.ok item))) ++
        [.ready none] := by
  cases hlast : (items.filter fun x => Bound.contains lo₀ hi₀ (key x)).getLast? with
  | none =>
    have hnil := List.getLast?_eq_none_iff.mp hlast
    have hanswer : ascAnswer key items lo₀ hi₀ = none := by simp [ascAnswer, hlast]
    simp [hnil, run_cons, pollNext, new, hchunk _ _ hv, hanswer]
  | some last =>
    obtain ⟨item, rest, hcons⟩ : ∃ item rest, (items.filter fun x => Bound.contains lo₀ hi₀ (key x)) = item :: rest := by
      cases hf : (items.filter fun x => Bound.contains lo₀ hi₀ (key x)) with
      | nil => simp [hf] at hlast
      | cons item rest => exact ⟨item, rest, rfl⟩
    have hanswer : ascAnswer key items lo₀ hi₀ = some ((.excluded (key last), hi₀), item :: rest) := by
      unfold ascAnswer
      rw [hlast, hcons]
    have hin : Bound.contains lo₀ hi₀ (key last) = true := by
      obtain ⟨init, hinit⟩ := List.getLast?_eq_some_iff.mp hlast
      have hmem : last ∈ items.filter fun x => Bound.contains lo₀ hi₀ (key x) := by simp [hinit]
      exact (List.mem_filter.mp hmem).2
    have hend : ascAnswer key items (.excluded (key last)) hi₀ = none := by
      simp [ascAnswer, filter_after_last hsorted hlast]
    have hfirst : pollNext (chunk env) (new lo₀ hi₀) =
        (.ready (some (.ok item)), ⟨rest, .excluded (key last), hi₀, false⟩) := by
      simp [pollNext, new, hchunk _ _ hv, hanswer]
    rw [hcons, List.length_cons, List.replicate_succ, run_cons, hfirst, List.replicate_succ', run_append,
      run_buffer, run_cons]
    simp [pollNext, hchunk _ _ (Bound.rangeValid_excluded hin), hend]

theorem run_descAnswer {chunk : σ → Bound K → Bound K → Answer K T E} {env : σ} {items : List T}
    (hsorted : (items.map key).Pairwise (· < ·))
    (hchunk : ∀ lo hi, Bound.rangeValid lo hi = true → chunk env lo hi = .ok (descAnswer key items lo hi))
    {lo₀ hi₀ : Bound K} (hv : Bound.rangeValid lo₀ hi₀ = true) :
    (run chunk (List.replicate ((items.filter fun x => Bound.contains lo₀ hi₀ (key x)).length + 1) env)
      (new lo₀ hi₀)).1 =
      (items.filter fun x => Bound.contains lo₀ hi₀ (key x)).reverse.map (fun item => .ready (some (.ok item))) ++
        [.ready none] := by
  have hsorted' : ((items.reverse).map (OrderDual.toDual ∘ key)).Pairwise (· < ·) := by
    rw [List.pairwise_map, List.pairwise_reverse]
    exact List.pairwise_map.mp hsorted
  have hchunk' : ∀ lo hi : Bound Kᵒᵈ, Bound.rangeValid lo hi = true →
      dualChunk (chunk env) lo hi = .ok (ascAnswer (OrderDual.toDual ∘ key) items.reverse lo hi) := by
    intro lo hi hvd
    have hv' : Bound.rangeValid hi.ofDual lo.ofDual = true := by
      rw [← Bound.rangeValid_dual, Bound.dual_ofDual, Bound.dual_ofDual]
      exact hvd
    simp only [dualChunk, hchunk _ _ hv', Except.map, dualAnswer_descAnswer, Bound.dual_ofDual]
  have hf : (items.reverse.filter fun x => Bound.contains hi₀.dual lo₀.dual ((OrderDual.toDual ∘ key) x)) =
      (items.filter fun x => Bound.contains lo₀ hi₀ (key x)).reverse := by
    simp [List.filter_reverse, Bound.contains_dual]
  have h := @run_ascAnswer _ _ _ _ _ _ (fun env => dualChunk (chunk env)) env _ hsorted' hchunk' hi₀.dual lo₀.dual
    (by rw [Bound.rangeValid_dual]; exact hv)
  rw [hf, List.length_reverse, ← new_dual, run_dual] at h
  exact h

end Exact

end ChunkedStream

end NativeLink
