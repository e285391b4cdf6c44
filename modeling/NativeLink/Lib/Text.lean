import Mathlib

-- Rust's `str` methods that split and join text, over its characters: `split_once`, `rsplitn` and
-- `join`. Text the separator does not occur in is one part; a separator in front of such text is
-- where the last split falls.

namespace Text

-- `s.split_once(sep)`: the text before the first `sep` and the text after it.
def splitOnce (sep : Char) (s : List Char) : Option (List Char × List Char) :=
  match s.span (· != sep) with
  | (before, _ :: after) => some (before, after)
  | (_, []) => none

-- `s.rsplitn(n, sep)`: the parts between separators from the right, at most `n` of them, the last
-- one holding all that is left.
def rsplitn (sep : Char) : Nat → List Char → List (List Char)
  | 0, _ => []
  | 1, s => [s]
  | n + 2, s =>
    match splitOnce sep s.reverse with
    | some (revAfter, revBefore) => revAfter.reverse :: rsplitn sep (n + 1) revBefore.reverse
    | none => [s]

-- `parts.join(sep)`.
def join (sep : Char) (parts : List (List Char)) : List Char :=
  List.intercalate [sep] parts

variable {sep : Char} {before after s : List Char}

theorem span_append_sep (h : sep ∉ before) :
    (before ++ sep :: after).span (· != sep) = (before, sep :: after) := by
  rw [List.span_eq_takeWhile_dropWhile]
  induction before with
  | nil => simp
  | cons c cs ih =>
    have hc : c ≠ sep := fun hcs => h (hcs ▸ List.mem_cons_self)
    have hrest := ih (fun hm => h (List.mem_cons_of_mem c hm))
    simp only [Prod.mk.injEq] at hrest
    simp [hc, hrest]

theorem splitOnce_append (h : sep ∉ before) : splitOnce sep (before ++ sep :: after) = some (before, after) := by
  rw [splitOnce, span_append_sep h]

theorem span_of_not_mem (h : sep ∉ s) : s.span (· != sep) = (s, []) := by
  rw [List.span_eq_takeWhile_dropWhile]
  induction s with
  | nil => rfl
  | cons c cs ih =>
    have hc : c ≠ sep := fun hcs => h (hcs ▸ List.mem_cons_self)
    have hrest := ih (fun hm => h (List.mem_cons_of_mem c hm))
    simp only [Prod.mk.injEq] at hrest
    simp [hc, hrest]

theorem splitOnce_of_not_mem (h : sep ∉ s) : splitOnce sep s = none := by
  rw [splitOnce, span_of_not_mem h]

theorem rsplitn_append (n : Nat) (h : sep ∉ after) :
    rsplitn sep (n + 2) (before ++ sep :: after) = after :: rsplitn sep (n + 1) before := by
  have hrev : (before ++ sep :: after).reverse = after.reverse ++ sep :: before.reverse := by simp
  rw [rsplitn, hrev, splitOnce_append (by simpa using h)]
  simp

theorem rsplitn_of_not_mem (n : Nat) (h : sep ∉ s) : rsplitn sep (n + 1) s = [s] := by
  cases n with
  | zero => rfl
  | succ n => rw [rsplitn, splitOnce_of_not_mem (by simpa using h)]

theorem join_append_singleton {parts : List (List Char)} (hne : parts ≠ []) (part : List Char) :
    join sep (parts ++ [part]) = join sep parts ++ sep :: part := by
  induction parts with
  | nil => exact absurd rfl hne
  | cons p ps ih =>
    cases ps with
    | nil => simp [join]
    | cons p' ps' =>
      have hrest := ih (List.cons_ne_nil _ _)
      simp only [join, List.cons_append, List.intercalate_cons_cons] at hrest ⊢
      rw [hrest]
      simp

theorem join_append {pre post : List (List Char)} (hpre : pre ≠ []) (hpost : post ≠ []) :
    join sep (pre ++ post) = join sep pre ++ sep :: join sep post := by
  induction post generalizing pre with
  | nil => exact absurd rfl hpost
  | cons part rest ih =>
    cases rest with
    | nil => simpa [join] using join_append_singleton hpre part
    | cons next rest =>
      rw [show pre ++ part :: next :: rest = (pre ++ [part]) ++ next :: rest by simp, ih (by simp) (by simp),
        join_append_singleton hpre]
      simp [join, List.intercalate_cons_cons]

theorem join_cons_ne_nil {part : List Char} (hpart : part ≠ []) (parts : List (List Char)) :
    join sep (part :: parts) ≠ [] := by
  cases parts with
  | nil => simpa [join] using hpart
  | cons next parts => simp [join, List.intercalate_cons_cons, hpart]

theorem rsplitn_join_append (n : Nat) {segs after : List (List Char)} (hsegs : segs ≠ [])
    (hafter : ∀ a ∈ after, sep ∉ a) :
    rsplitn sep (after.length + n + 1) (join sep (segs ++ after)) = after.reverse ++ rsplitn sep (n + 1) (join sep segs) := by
  induction after generalizing segs n with
  | nil => simp
  | cons a after ih =>
    have hlen : (a :: after).length + n + 1 = after.length + (n + 1) + 1 := by simp; omega
    rw [hlen, show segs ++ a :: after = (segs ++ [a]) ++ after by simp,
      ih (n + 1) (by simp) (fun x hx => hafter x (List.mem_cons_of_mem a hx)),
      join_append_singleton hsegs, rsplitn_append n (hafter a List.mem_cons_self)]
    simp

theorem splitOnce_not_mem {before after : List Char} (h : splitOnce sep s = some (before, after)) :
    sep ∉ before := by
  unfold splitOnce at h
  rw [List.span_eq_takeWhile_dropWhile] at h
  split at h
  case h_1 before' _ _ hspan =>
    injection h with h
    injection h with hb
    simp only [Prod.mk.injEq] at hspan
    rw [← hb, ← hspan.1]
    intro hm
    have := List.mem_takeWhile_imp hm
    simp at this
  case h_2 => cases h

theorem rsplitn_succ_ne_nil (n : Nat) (s : List Char) : rsplitn sep (n + 1) s ≠ [] := by
  cases n with
  | zero => simp [rsplitn]
  | succ n =>
    unfold rsplitn
    split <;> simp

theorem not_mem_of_mem_dropLast_rsplitn :
    ∀ {n : Nat} {s part : List Char}, part ∈ (rsplitn sep n s).dropLast → sep ∉ part
  | 0, _, _, h => by simp [rsplitn] at h
  | 1, _, _, h => by simp [rsplitn] at h
  | n + 2, s, part, h => by
    unfold rsplitn at h
    split at h
    case h_1 revAfter revBefore hsplit =>
      rw [List.dropLast_cons_of_ne_nil (rsplitn_succ_ne_nil n _), List.mem_cons] at h
      rcases h with rfl | h
      case inl => simpa using splitOnce_not_mem hsplit
      case inr => exact not_mem_of_mem_dropLast_rsplitn h
    case h_2 => simp at h

end Text
