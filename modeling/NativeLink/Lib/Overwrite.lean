import Mathlib

-- A list written over in place, as a store of byte strings does for a ranged write:
-- `overwrite pad l offset v` puts `v` at `offset`, padding `l` with `pad` where it ends before
-- `offset`. Writing the consecutive pieces of a list into an empty one, in any order, gives that
-- list back: each write leaves the positions of the others as they were, so once all are written
-- every position holds what its piece put there.

namespace Overwrite

variable {α : Type}

def overwrite (pad : α) (l : List α) (offset : Nat) (v : List α) : List α :=
  (l ++ List.replicate (offset - l.length) pad).take offset ++ v ++ l.drop (offset + v.length)

-- The consecutive pieces of a list, each with the position it starts at, from `start` on.
def placed : List (List α) → Nat → List (Nat × List α)
  | [], _ => []
  | v :: vs, start => (start, v) :: placed vs (start + v.length)

-- Two pieces that share no position.
def Apart (p q : Nat × List α) : Prop :=
  p.1 + p.2.length ≤ q.1 ∨ q.1 + q.2.length ≤ p.1

theorem Apart.symm {p q : Nat × List α} (h : Apart p q) : Apart q p :=
  Or.symm h

-- What a list holds once the pieces `done` were written into it: each piece where it was written,
-- and nothing past `bound`.
structure Holds (bound : Nat) (l : List α) (done : List (Nat × List α)) : Prop where
  length_le : l.length ≤ bound
  piece : ∀ p ∈ done, ∀ i < p.2.length, l[p.1 + i]? = p.2[i]?

section Overwrite

variable {pad : α} {l v : List α} {offset p : Nat}

theorem length_overwrite : (overwrite pad l offset v).length = max l.length (offset + v.length) := by
  simp only [overwrite, List.length_append, List.length_take, List.length_replicate, List.length_drop]
  omega

theorem length_padded_take :
    ((l ++ List.replicate (offset - l.length) pad).take offset).length = offset := by
  simp only [List.length_take, List.length_append, List.length_replicate]
  omega

theorem getElem?_overwrite_piece {i : Nat} (hi : i < v.length) :
    (overwrite pad l offset v)[offset + i]? = v[i]? := by
  rw [overwrite, List.append_assoc, List.getElem?_append_right (by rw [length_padded_take]; omega),
    length_padded_take, List.getElem?_append_left (by omega), Nat.add_sub_cancel_left]

theorem getElem?_overwrite_of_apart (hp : p < l.length) (hout : p < offset ∨ offset + v.length ≤ p) :
    (overwrite pad l offset v)[p]? = l[p]? := by
  rcases hout with hlt | hge
  case inl =>
    rw [overwrite, List.append_assoc, List.getElem?_append_left (by rw [length_padded_take]; exact hlt),
      List.getElem?_take_of_lt hlt, List.getElem?_append_left hp]
  case inr =>
    have hfront : (((l ++ List.replicate (offset - l.length) pad).take offset) ++ v).length = offset + v.length := by
      rw [List.length_append, length_padded_take]
    rw [overwrite, List.getElem?_append_right (by omega), hfront, List.getElem?_drop]
    congr 1
    omega

end Overwrite

/-! ## Writing pieces in any order -/

section Holds

variable {pad : α} {bound : Nat}

theorem Holds.nil (bound : Nat) : Holds bound ([] : List α) [] :=
  ⟨Nat.zero_le _, by simp⟩

theorem Holds.lt_length {l : List α} {done : List (Nat × List α)} (h : Holds bound l done)
    {p : Nat × List α} (hp : p ∈ done) {i : Nat} (hi : i < p.2.length) : p.1 + i < l.length := by
  have hpiece := h.piece p hp i hi
  rw [List.getElem?_eq_getElem hi] at hpiece
  exact (List.getElem?_eq_some_iff.mp hpiece).1

theorem Holds.overwrite {l : List α} {done : List (Nat × List α)} (h : Holds bound l done)
    {q : Nat × List α} (hq : q.1 + q.2.length ≤ bound) (hapart : ∀ p ∈ done, Apart p q) :
    Holds bound (Overwrite.overwrite pad l q.1 q.2) (q :: done) where
  length_le := by
    have hl := h.length_le
    rw [length_overwrite]
    omega
  piece := by
    intro p hp i hi
    rcases List.mem_cons.mp hp with rfl | hp
    case inl => exact getElem?_overwrite_piece hi
    case inr =>
      have hout : p.1 + i < q.1 ∨ q.1 + q.2.length ≤ p.1 + i := by
        rcases (hapart p hp : p.1 + p.2.length ≤ q.1 ∨ q.1 + q.2.length ≤ p.1) with hbefore | hafter
        · omega
        · omega
      rw [getElem?_overwrite_of_apart (h.lt_length hp hi) hout, h.piece p hp i hi]

theorem holds_foldl :
    ∀ (rest : List (Nat × List α)) (l : List α) (done : List (Nat × List α)),
      Holds bound l done → rest.Pairwise Apart → (∀ q ∈ rest, ∀ p ∈ done, Apart p q) →
      (∀ q ∈ rest, q.1 + q.2.length ≤ bound) →
      Holds bound (rest.foldl (fun l q => overwrite pad l q.1 q.2) l) (rest.reverse ++ done)
  | [], _, _, h, _, _, _ => by simpa using h
  | q :: rest, l, done, h, hpair, hapart, hbound => by
    rw [List.pairwise_cons] at hpair
    have hstep : Holds bound (overwrite pad l q.1 q.2) (q :: done) :=
      h.overwrite (hbound q List.mem_cons_self) (hapart q List.mem_cons_self)
    have hrest := holds_foldl rest _ _ hstep hpair.2
      (fun q' hq' p hp => by
        rcases List.mem_cons.mp hp with rfl | hp
        case inl => exact hpair.1 q' hq'
        case inr => exact hapart q' (List.mem_cons_of_mem q hq') p hp)
      (fun q' hq' => hbound q' (List.mem_cons_of_mem q hq'))
    rw [List.foldl_cons, List.reverse_cons, List.append_assoc, List.singleton_append]
    exact hrest

end Holds

/-! ## The consecutive pieces of a list -/

section Placed

theorem length_placed : ∀ (vs : List (List α)) (start : Nat), (placed vs start).length = vs.length
  | [], _ => rfl
  | _ :: vs, _ => by rw [placed, List.length_cons, length_placed vs, List.length_cons]

theorem mem_of_mem_placed : ∀ {vs : List (List α)} {start : Nat} {p : Nat × List α},
    p ∈ placed vs start → p.2 ∈ vs
  | [], _, _, hp => by simp [placed] at hp
  | v :: vs, start, p, hp => by
    rcases List.mem_cons.mp hp with rfl | hp
    case inl => exact List.mem_cons_self
    case inr => exact List.mem_cons_of_mem v (mem_of_mem_placed hp)

theorem mem_placed : ∀ {vs : List (List α)} {start : Nat} {p : Nat × List α}, p ∈ placed vs start →
    start ≤ p.1 ∧ p.1 + p.2.length ≤ start + vs.flatten.length ∧
      ∀ i < p.2.length, vs.flatten[p.1 - start + i]? = p.2[i]?
  | [], _, _, hp => by simp [placed] at hp
  | v :: vs, start, p, hp => by
    rcases List.mem_cons.mp hp with rfl | hp
    case inl =>
      refine ⟨Nat.le_refl _, by simp, fun i hi => ?_⟩
      rw [List.flatten_cons, Nat.sub_self, Nat.zero_add, List.getElem?_append_left hi]
    case inr =>
      obtain ⟨hstart, hend, hget⟩ := mem_placed hp
      refine ⟨by omega, by simp only [List.flatten_cons, List.length_append]; omega, fun i hi => ?_⟩
      rw [List.flatten_cons, List.getElem?_append_right (by omega), ← hget i hi]
      congr 1
      omega

theorem exists_mem_placed : ∀ (vs : List (List α)) (start k : Nat), k < vs.flatten.length →
    ∃ p ∈ placed vs start, p.1 ≤ start + k ∧ start + k < p.1 + p.2.length
  | [], _, _, hk => by simp at hk
  | v :: vs, start, k, hk => by
    by_cases hv : k < v.length
    case pos => exact ⟨(start, v), List.mem_cons_self, by simp, by simpa using hv⟩
    case neg =>
      rw [List.flatten_cons, List.length_append] at hk
      obtain ⟨p, hp, hlo, hhi⟩ := exists_mem_placed vs (start + v.length) (k - v.length) (by omega)
      exact ⟨p, List.mem_cons_of_mem _ hp, by omega, by omega⟩

theorem pairwise_placed : ∀ (vs : List (List α)) (start : Nat), (placed vs start).Pairwise Apart
  | [], _ => List.Pairwise.nil
  | v :: vs, start => by
    rw [placed, List.pairwise_cons]
    exact ⟨fun p hp => Or.inl (mem_placed hp).1, pairwise_placed vs _⟩

theorem foldl_max_placed : ∀ (vs : List (List α)) (start : Nat),
    (placed vs start).foldl (fun t p => max t (p.1 + p.2.length)) start = start + vs.flatten.length
  | [], _ => by simp [placed]
  | v :: vs, start => by
    rw [placed, List.foldl_cons, Nat.max_eq_right (Nat.le_add_right _ _), foldl_max_placed vs,
      List.flatten_cons, List.length_append, Nat.add_assoc]

theorem foldl_overwrite_of_perm (pad : α) {vs : List (List α)} {order : List (Nat × List α)}
    (h : order.Perm (placed vs 0)) :
    order.foldl (fun l q => overwrite pad l q.1 q.2) [] = vs.flatten := by
  have hpair : order.Pairwise Apart := (h.pairwise_iff Apart.symm).mpr (pairwise_placed vs 0)
  have hholds : Holds vs.flatten.length (order.foldl (fun l q => overwrite pad l q.1 q.2) [])
      (order.reverse ++ []) :=
    holds_foldl order [] [] (Holds.nil vs.flatten.length) hpair
      (by simp) (fun q hq => by simpa using (mem_placed (h.mem_iff.mp hq)).2.1)
  rw [List.append_nil] at hholds
  apply List.ext_getElem?
  intro k
  by_cases hk : k < vs.flatten.length
  case pos =>
    obtain ⟨p, hp, hlo, hhi⟩ := exists_mem_placed vs 0 k hk
    have hpiece := hholds.piece p (List.mem_reverse.mpr (h.mem_iff.mpr hp)) (k - p.1) (by omega)
    have hflat := (mem_placed hp).2.2 (k - p.1) (by omega)
    rw [show p.1 + (k - p.1) = k by omega] at hpiece
    rw [show p.1 - 0 + (k - p.1) = k by omega] at hflat
    rw [hpiece, hflat]
  case neg =>
    rw [List.getElem?_eq_none (by have := hholds.length_le; omega), List.getElem?_eq_none (by omega)]

end Placed

end Overwrite
