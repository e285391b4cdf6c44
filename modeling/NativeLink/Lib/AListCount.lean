import Mathlib

-- Counting the entries of an association list by their values: how many keys `insert` and
-- `erase` leave mapped to a value of a given kind.

namespace AList

variable {α β : Type} [DecidableEq α]

def countValues (p : β → Bool) (s : AList (fun _ : α => β)) : Nat :=
  s.entries.countP fun e => p e.2

-- One if the key is there with a value of the kind, zero otherwise.
def lookupCount (p : β → Bool) (a : α) (s : AList (fun _ : α => β)) : Nat :=
  match s.lookup a with
  | some b => if p b then 1 else 0
  | none => 0

theorem countP_kerase_add (p : β → Bool) (a : α) :
    ∀ l : List (Sigma fun _ : α => β),
      (l.kerase a).countP (fun e => p e.2) +
          (match l.dlookup a with
            | some b => if p b then 1 else 0
            | none => 0) =
        l.countP fun e => p e.2
  | [] => rfl
  | ⟨c, b⟩ :: l => by
    by_cases h : a = c
    case pos =>
      subst h
      have hk : List.kerase a (⟨a, b⟩ :: l) = l := List.kerase_cons_eq rfl
      have hd : List.dlookup a (⟨a, b⟩ :: l) = some b := List.dlookup_cons_eq l a b
      rw [hk, hd, List.countP_cons]
    case neg =>
      have hk : List.kerase a (⟨c, b⟩ :: l) = ⟨c, b⟩ :: List.kerase a l := List.kerase_cons_ne h
      have hd : List.dlookup a (⟨c, b⟩ :: l) = List.dlookup a l := List.dlookup_cons_ne l ⟨c, b⟩ h
      rw [hk, hd, List.countP_cons, List.countP_cons, ← countP_kerase_add p a l]
      omega

theorem countValues_erase_add (p : β → Bool) (a : α) (s : AList (fun _ : α => β)) :
    countValues p (s.erase a) + lookupCount p a s = countValues p s :=
  countP_kerase_add p a s.entries

theorem countValues_insert (p : β → Bool) (a : α) (b : β) (s : AList (fun _ : α => β)) :
    countValues p (s.insert a b) = countValues p (s.erase a) + if p b then 1 else 0 := by
  rw [countValues, entries_insert, List.countP_cons]
  rfl

theorem lookupCount_of_lookup_none {p : β → Bool} {a : α} {s : AList (fun _ : α => β)}
    (h : s.lookup a = none) : lookupCount p a s = 0 := by
  rw [lookupCount, h]

theorem lookupCount_of_lookup_some {p : β → Bool} {a : α} {b : β} {s : AList (fun _ : α => β)}
    (h : s.lookup a = some b) : lookupCount p a s = if p b then 1 else 0 := by
  rw [lookupCount, h]

end AList
