import Mathlib

-- A sequence filled in by writes at offsets, the first write to a position keeping it: what a
-- receiver that drops data it already has builds from writes that may overlap. `fill writes p` is
-- the value at `p`, if some write covered it.

namespace Fill

variable {α : Type}

-- What a write of `data` at `offset` puts at position `p`.
def at? (offset : Nat) (data : List α) (p : Nat) : Option α :=
  if offset ≤ p then data[p - offset]? else none

-- A write covers the positions from its offset on, as many as it has data.
def Covers (write : Nat × List α) (p : Nat) : Prop :=
  write.1 ≤ p ∧ p < write.1 + write.2.length

instance (write : Nat × List α) (p : Nat) : Decidable (Covers write p) :=
  inferInstanceAs (Decidable (_ ∧ _))

-- `known` with what a write puts where `known` has nothing yet.
def supply (known : Nat → Option α) (offset : Nat) (data : List α) : Nat → Option α :=
  fun p => (known p).or (at? offset data p)

def fill (writes : List (Nat × List α)) : Nat → Option α :=
  writes.foldl (fun known write => supply known write.1 write.2) fun _ => none

variable {offset p : Nat} {data l : List α} {writes : List (Nat × List α)}

theorem at?_eq_none_iff : at? offset data p = none ↔ ¬Covers (offset, data) p := by
  unfold at? Covers
  split
  case isTrue h => simp only [List.getElem?_eq_none_iff]; omega
  case isFalse h => simp only [true_iff]; omega

theorem fill_append_singleton (write : Nat × List α) :
    fill (writes ++ [write]) = supply (fill writes) write.1 write.2 := by
  rw [fill, List.foldl_append, List.foldl_cons, List.foldl_nil, ← fill]

theorem foldl_supply (known : Nat → Option α) (p : Nat) :
    writes.foldl (fun known write => supply known write.1 write.2) known p =
      (known p).or ((writes.find? fun write => decide (Covers write p)).bind fun write => at? write.1 write.2 p) := by
  induction writes generalizing known with
  | nil => simp
  | cons write writes ih =>
    rw [List.foldl_cons, ih, List.find?_cons]
    by_cases hc : Covers write p
    case pos =>
      obtain ⟨a, ha⟩ := Option.ne_none_iff_exists'.mp (mt at?_eq_none_iff.mp (not_not.mpr hc))
      simp [supply, hc, ha]
    case neg => simp [supply, hc, at?_eq_none_iff.mpr hc]

theorem fill_eq_find (p : Nat) :
    fill writes p = (writes.find? fun write => decide (Covers write p)).bind fun write => at? write.1 write.2 p := by
  rw [fill, foldl_supply, Option.none_or]

theorem supply_getElem? (h : offset ≤ l.length) :
    supply (fun p => l[p]?) offset data = fun p => (l ++ data.drop (l.length - offset))[p]? := by
  funext p
  simp only [supply, at?]
  by_cases hp : p < l.length
  case pos => simp [List.getElem?_append_left hp, List.getElem?_eq_getElem hp]
  case neg =>
    rw [List.getElem?_append_right (Nat.le_of_not_lt hp), List.getElem?_eq_none (Nat.le_of_not_lt hp),
      Option.none_or, if_pos (by omega), List.getElem?_drop]
    congr 1
    omega

end Fill
