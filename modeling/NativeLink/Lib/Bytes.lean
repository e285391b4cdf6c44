import Mathlib

-- Fixed-width little-endian integers over byte lists: what `put_u32_le` and bincode's fixed-int
-- encoding write, and what `get_u32_le` reads back. A field `n` bytes wide holds its value modulo
-- `256 ^ n`, which is how a cast such as `as u32` before a write is modelled.

namespace Bytes

def le : Nat → Nat → List UInt8
  | 0, _     => []
  | n + 1, x => UInt8.ofNat (x % 256) :: le n (x / 256)

def ofLe : List UInt8 → Nat
  | []      => 0
  | b :: bs => b.toNat + 256 * ofLe bs

variable {n x : Nat}

@[simp] theorem length_le : (le n x).length = n := by
  induction n generalizing x
  case zero => rfl
  case succ n ih => simp [le, ih]

theorem ofLe_le : ofLe (le n x) = x % 256 ^ n := by
  induction n generalizing x
  case zero => simp [le, ofLe, Nat.mod_one]
  case succ n ih =>
    have hb : (UInt8.ofNat (x % 256)).toNat = x % 256 := by simp
    rw [le, ofLe, ih, hb, Nat.pow_succ, Nat.mul_comm _ 256, Nat.mod_mul]

theorem ofLe_le_of_lt (h : x < 256 ^ n) : ofLe (le n x) = x := by
  rw [ofLe_le, Nat.mod_eq_of_lt h]

end Bytes
