import Mathlib

-- Rust's `slice::binary_search_by` as the standard library of Rust 1.84 writes it, and
-- `binary_search_by_key` over it. The loop keeps a window `[base, base + size)` and halves it a
-- fixed number of times, with no early exit on an equal element; one last comparison at `base`
-- decides between `Ok(base)` and `Err`. On a slice sorted by the key it returns `Ok` at the last
-- element equal to the key, and otherwise `Err` at the place the key would be inserted. `Ok` and
-- `Err` are `Except.ok` and `Except.error`.

namespace BinarySearch

variable {α β : Type} [LinearOrder β]

-- The `while size > 1` loop, with the slice's length as fuel: each round makes `size` smaller.
def loop (cmp : α → Ordering) (a : List α) : Nat → Nat → Nat → Nat × Nat
  | 0, base, size => (base, size)
  | fuel + 1, base, size =>
    if size > 1 then
      let half := size / 2
      let mid := base + half
      -- `get_unchecked(mid)`: `mid < base + size`, within the slice
      let base := match a[mid]? with
        | some x => if cmp x = .gt then base else mid
        | none => base
      loop cmp a fuel base (size - half)
    else (base, size)

def binarySearchBy (cmp : α → Ordering) (a : List α) : Except Nat Nat :=
  if a.length = 0 then .error 0
  else
    let base := (loop cmp a a.length 0 a.length).1
    match a[base]? with
    | some x =>
      match cmp x with
      | .eq => .ok base
      | .lt => .error (base + 1)
      | .gt => .error base
    | none => .error base

def binarySearchByKey (key : β) (f : α → β) (a : List α) : Except Nat Nat :=
  binarySearchBy (fun x => compare (f x) key) a

/-! ## The window of the loop -/

section Window

variable {key : β} {f : α → β} {a : List α}

-- The window holds every index that may still be the answer: from `base + size` on the keys are
-- above `key`, and the key at a `base` that has moved is at most `key`.
structure Window (key : β) (f : α → β) (a : List α) (base size : Nat) : Prop where
  size_pos : 0 < size
  le_length : base + size ≤ a.length
  at_base : 0 < base → ∀ x, a[base]? = some x → f x ≤ key
  above : ∀ j x, base + size ≤ j → a[j]? = some x → key < f x

theorem sorted_le (hs : a.Pairwise fun x y => f x ≤ f y) {i j : Nat} {x y : α} (hij : i ≤ j)
    (hx : a[i]? = some x) (hy : a[j]? = some y) : f x ≤ f y := by
  obtain ⟨hi, rfl⟩ := List.getElem?_eq_some_iff.mp hx
  obtain ⟨hj, rfl⟩ := List.getElem?_eq_some_iff.mp hy
  rcases Nat.lt_or_eq_of_le hij with hlt | rfl
  case inl => exact List.pairwise_iff_getElem.mp hs i j hi hj hlt
  case inr => exact le_refl _

theorem Window.step (hs : a.Pairwise fun x y => f x ≤ f y) {base size : Nat} (h : Window key f a base size)
    (hsize : 1 < size) :
    Window key f a
      (match a[base + size / 2]? with
        | some x => if compare (f x) key = .gt then base else base + size / 2
        | none => base)
      (size - size / 2) := by
  have hmid : base + size / 2 < a.length := by have := h.le_length; omega
  obtain ⟨m, hm⟩ : ∃ m, a[base + size / 2]? = some m := ⟨_, List.getElem?_eq_getElem hmid⟩
  rw [hm]
  dsimp only
  split
  case isTrue hgt =>
    rw [compare_gt_iff_gt] at hgt
    refine ⟨by omega, by have := h.le_length; omega, h.at_base, fun j x hj hx => ?_⟩
    by_cases hfar : base + size ≤ j
    case pos => exact h.above j x hfar hx
    case neg => exact lt_of_lt_of_le hgt (sorted_le hs (by omega) hm hx)
  case isFalse hle =>
    have hmle : f m ≤ key := by
      rw [compare_gt_iff_gt] at hle
      exact not_lt.mp hle
    refine ⟨by omega, by have := h.le_length; omega, fun _ x hx => ?_, fun j x hj hx => h.above j x (by omega) hx⟩
    rw [hm] at hx
    cases hx
    exact hmle

theorem Window.loop (hs : a.Pairwise fun x y => f x ≤ f y) :
    ∀ (fuel base size : Nat), Window key f a base size → size ≤ fuel + 1 →
      (loop (fun x => compare (f x) key) a fuel base size).2 = 1 ∧
        Window key f a (loop (fun x => compare (f x) key) a fuel base size).1 1
  | 0, base, size, h, hfuel => by
    have : size = 1 := by have := h.size_pos; omega
    subst this
    exact ⟨rfl, h⟩
  | fuel + 1, base, size, h, hfuel => by
    rw [BinarySearch.loop]
    split
    case isTrue hsize => exact Window.loop hs fuel _ _ (h.step hs hsize) (by omega)
    case isFalse hsize =>
      have : size = 1 := by have := h.size_pos; omega
      subst this
      exact ⟨rfl, h⟩

theorem window_init (hne : a ≠ []) : Window key f a 0 a.length :=
  ⟨List.length_pos_of_ne_nil hne, by omega, fun h => absurd h (Nat.lt_irrefl 0), fun j x hj hx => by
    rw [List.getElem?_eq_none (by omega)] at hx
    cases hx⟩

end Window

/-! ## The contract -/

section Contract

variable {key : β} {f : α → β} {a : List α} (hs : a.Pairwise fun x y => f x ≤ f y)
include hs

theorem binarySearchByKey_of_ne_nil (hne : a ≠ []) :
    ∃ base x, Window key f a base 1 ∧ a[base]? = some x ∧
      binarySearchByKey key f a =
        match compare (f x) key with
        | .eq => .ok base
        | .lt => .error (base + 1)
        | .gt => .error base := by
  obtain ⟨-, hw⟩ := @Window.loop α β _ key f a hs a.length 0 a.length (window_init hne) (by omega)
  obtain ⟨x, hx⟩ : ∃ x, a[(loop (fun x => compare (f x) key) a a.length 0 a.length).1]? = some x :=
    ⟨_, List.getElem?_eq_getElem (by have := hw.le_length; omega)⟩
  refine ⟨_, x, hw, hx, ?_⟩
  rw [binarySearchByKey, binarySearchBy, if_neg (by simpa using hne)]
  dsimp only
  rw [hx]

theorem binarySearchByKey_ok {i : Nat} (h : binarySearchByKey key f a = .ok i) :
    ∃ x, a[i]? = some x ∧ f x = key ∧ ∀ j y, i < j → a[j]? = some y → key < f y := by
  by_cases hne : a = []
  case pos =>
    subst hne
    cases h
  case neg =>
    obtain ⟨base, x, hw, hx, heq⟩ := @binarySearchByKey_of_ne_nil α β _ key f a hs hne
    rw [heq] at h
    split at h
    case h_1 hcmp =>
      cases h
      exact ⟨x, hx, compare_eq_iff_eq.mp hcmp, fun j y hj hy => hw.above j y (by omega) hy⟩
    all_goals cases h

theorem binarySearchByKey_error {i : Nat} (h : binarySearchByKey key f a = .error i) :
    i ≤ a.length ∧ ∀ j y, a[j]? = some y → (j < i → f y < key) ∧ (i ≤ j → key < f y) := by
  by_cases hne : a = []
  case pos =>
    subst hne
    cases h
    exact ⟨Nat.le_refl 0, fun j y hy => by simp at hy⟩
  case neg =>
    obtain ⟨base, x, hw, hx, heq⟩ := @binarySearchByKey_of_ne_nil α β _ key f a hs hne
    have hbase : base < a.length := by have := hw.le_length; omega
    rw [heq] at h
    split at h
    case h_1 => cases h
    case h_2 hcmp =>
      cases h
      have hlt := compare_lt_iff_lt.mp hcmp
      refine ⟨by omega, fun j y hy => ⟨fun hj => ?_, fun hj => hw.above j y (by omega) hy⟩⟩
      exact lt_of_le_of_lt (sorted_le hs (by omega) hy hx) hlt
    case h_3 hcmp =>
      have hi : base = i := by injection h
      subst hi
      have hgt := compare_gt_iff_gt.mp hcmp
      have hzero : base = 0 := by
        by_contra hpos
        exact absurd (hw.at_base (by omega) x hx) (not_le.mpr hgt)
      subst hzero
      refine ⟨by omega, fun j y hy => ⟨fun hj => absurd hj (Nat.not_lt_zero j), fun _ => ?_⟩⟩
      rcases Nat.eq_zero_or_pos j with rfl | hpos
      case inl =>
        rw [hx] at hy
        cases hy
        exact hgt
      case inr => exact hw.above j y (by omega) hy

end Contract

end BinarySearch
