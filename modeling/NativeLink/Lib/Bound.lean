import Mathlib

-- Range bounds as in Rust's `std::ops::Bound`, with the membership test of `RangeBounds::contains`
-- and the precondition of the ordered collections' `range`, which panic on a start past the end
-- or on an empty range with both ends excluded.

inductive Bound (α : Type*)
  | included (a : α)
  | excluded (a : α)
  | unbounded
  deriving DecidableEq, Repr

namespace Bound

variable {α : Type*} [LinearOrder α]

def aboveStart : Bound α → α → Bool
  | included a, x => decide (a ≤ x)
  | excluded a, x => decide (a < x)
  | unbounded, _  => true

def belowEnd : Bound α → α → Bool
  | included b, x => decide (x ≤ b)
  | excluded b, x => decide (x < b)
  | unbounded, _  => true

def contains (lo hi : Bound α) (x : α) : Bool :=
  lo.aboveStart x && hi.belowEnd x

-- `BTreeMap::range` and `BTreeSet::range` panic unless this holds.
def rangeValid : Bound α → Bound α → Bool
  | excluded a, excluded b => decide (a < b)
  | included a, included b | included a, excluded b | excluded a, included b => decide (a ≤ b)
  | _, _ => true

@[simp] theorem contains_unbounded (x : α) : contains unbounded unbounded x = true :=
  rfl

@[simp] theorem rangeValid_unbounded : rangeValid (unbounded : Bound α) unbounded = true :=
  rfl

variable {b lo hi : Bound α} {x y : α}

theorem aboveStart_of_le (h : b.aboveStart x = true) (hxy : x ≤ y) : b.aboveStart y = true := by
  cases b
  case included a => simpa [aboveStart] using le_trans (by simpa [aboveStart] using h) hxy
  case excluded a => simpa [aboveStart] using lt_of_lt_of_le (by simpa [aboveStart] using h) hxy
  case unbounded => rfl

theorem belowEnd_of_le (h : b.belowEnd y = true) (hxy : x ≤ y) : b.belowEnd x = true := by
  cases b
  case included a => simpa [belowEnd] using le_trans hxy (by simpa [belowEnd] using h)
  case excluded a => simpa [belowEnd] using lt_of_le_of_lt hxy (by simpa [belowEnd] using h)
  case unbounded => rfl

theorem rangeValid_of_contains (h : contains lo hi x = true) : rangeValid lo hi = true := by
  cases lo <;> cases hi <;> simp only [rangeValid, contains, aboveStart, belowEnd, Bool.and_eq_true,
    decide_eq_true_eq] at h ⊢ <;> grind

theorem rangeValid_excluded (h : contains lo hi x = true) : rangeValid (excluded x) hi = true := by
  cases hi <;> simp_all [rangeValid, contains, belowEnd]

theorem rangeValid_excluded_end (h : contains lo hi x = true) : rangeValid lo (excluded x) = true := by
  cases lo <;> simp_all [rangeValid, contains, aboveStart]

/-! ### The same bounds in the reversed order -/

def dual : Bound α → Bound αᵒᵈ
  | included a => included (OrderDual.toDual a)
  | excluded a => excluded (OrderDual.toDual a)
  | unbounded => unbounded

def ofDual : Bound αᵒᵈ → Bound α
  | included a => included (OrderDual.ofDual a)
  | excluded a => excluded (OrderDual.ofDual a)
  | unbounded => unbounded

omit [LinearOrder α] in
@[simp] theorem ofDual_dual (b : Bound α) : b.dual.ofDual = b := by
  cases b <;> rfl

omit [LinearOrder α] in
@[simp] theorem dual_ofDual (b : Bound αᵒᵈ) : b.ofDual.dual = b := by
  cases b <;> rfl

@[simp] theorem aboveStart_dual : b.dual.aboveStart (OrderDual.toDual x) = b.belowEnd x := by
  cases b <;> simp [dual, aboveStart, belowEnd]

@[simp] theorem belowEnd_dual : b.dual.belowEnd (OrderDual.toDual x) = b.aboveStart x := by
  cases b <;> simp [dual, aboveStart, belowEnd]

theorem contains_dual : contains hi.dual lo.dual (OrderDual.toDual x) = contains lo hi x := by
  simp [contains, Bool.and_comm]

theorem rangeValid_dual : rangeValid hi.dual lo.dual = rangeValid lo hi := by
  cases lo <;> cases hi <;> simp [dual, rangeValid]

end Bound
