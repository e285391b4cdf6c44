import Mathlib

-- Results gathered from futures that finish in any order, and lists put in order by a key. Futures
-- pushed into a `FuturesUnordered` finish in an order no program controls; `try_collect` gathers
-- their results in that order and stops at the first error. What does not depend on the order is
-- whether some future failed and the multiset of the results, and a list sorted by keys that are
-- distinct.

namespace Collect

-- `try_collect` of futures that finish in `order`, a list of their indices in the order they
-- were pushed.
def tryCollect {ε α : Type} (order : List Nat) (results : List (Except ε α)) : Except ε (List α) :=
  (order.filterMap (results[·]?)).mapM id

-- `sort_unstable_by(|a, b| key(a).cmp(&key(b)))`. The sort is not stable, but with distinct keys
-- every sort gives the list an insertion sort gives.
def sortBy {α κ : Type} [LinearOrder κ] (key : α → κ) (l : List α) : List α :=
  l.insertionSort fun a b => key a ≤ key b

section Order

variable {α : Type}

theorem filterMap_getElem?_range (l : List α) : (List.range l.length).filterMap (l[·]?) = l := by
  induction l with
  | nil => rfl
  | cons x l ih =>
    rw [List.length_cons, List.range_succ_eq_map, List.filterMap_cons, List.getElem?_cons_zero,
      List.filterMap_map]
    have htail : ((fun i => (x :: l)[i]?) ∘ Nat.succ) = fun i => l[i]? := by
      funext i
      exact List.getElem?_cons_succ
    rw [htail, ih]

theorem perm_filterMap_getElem? {order : List Nat} {l : List α} (h : order.Perm (List.range l.length)) :
    (order.filterMap (l[·]?)).Perm l := by
  have hperm := h.filterMap (l[·]?)
  rwa [filterMap_getElem?_range] at hperm

end Order

section Rel

variable {α β γ : Type}

theorem rel_bind_eq {R : α → β → Prop} {o : Option α} {s : Option β} (h : Option.Rel R o s)
    {g : α → Option γ} {g' : β → Option γ} (hg : ∀ a b, R a b → s = some b → g a = g' b) :
    o.bind g = s.bind g' := by
  cases h with
  | none => rfl
  | some hab => exact hg _ _ hab rfl

theorem rel_mono {R S : α → β → Prop} {o : Option α} {s : Option β} (h : Option.Rel R o s)
    (hRS : ∀ a b, R a b → S a b) : Option.Rel S o s := by
  cases h with
  | none => exact .none
  | some hab => exact .some (hRS _ _ hab)

theorem rel_of_map_eq {o₁ o₂ : Option α} {g : α → β} (h : o₁.map g = o₂.map g) :
    Option.Rel (fun a b => g a = g b) o₁ o₂ := by
  cases o₁ <;> cases o₂
  case none.none => exact .none
  case some.some a b => exact .some (Option.some.inj h)
  all_goals cases h

theorem rel_of_map_left {R : β → γ → Prop} {f : α → β} {o : Option α} {s : Option γ}
    (h : Option.Rel R (o.map f) s) : Option.Rel (fun a b => R (f a) b) o s := by
  cases o <;> cases s
  case none.none => exact .none
  case some.some a b => exact .some (Option.rel_some_some.mp h)
  all_goals cases h

theorem rel_some_left {R : α → β → Prop} {a : α} {o : Option β} (h : Option.Rel R (some a) o) :
    ∃ b, o = some b ∧ R a b := by
  cases h
  exact ⟨_, rfl, ‹_›⟩

end Rel

section Collect

variable {ε α β : Type}

theorem toOption_mapM_id : ∀ l : List (Except ε α), (l.mapM id).toOption = (l.map Except.toOption).mapM id
  | [] => rfl
  | .error _ :: _ => rfl
  | .ok a :: l => by
    rw [List.mapM_cons, List.map_cons, List.mapM_cons, ← toOption_mapM_id l]
    cases l.mapM id <;> rfl

theorem mapM_id_eq_reduceOption : ∀ l : List (Option α),
    l.mapM id = if l.all Option.isSome then some l.reduceOption else none
  | [] => rfl
  | none :: _ => rfl
  | some a :: l => by
    rw [List.mapM_cons, mapM_id_eq_reduceOption l, List.all_cons]
    cases l.all Option.isSome <;> rfl

theorem mapM_id_eq_none {l : List (Option α)} (h : none ∈ l) : l.mapM id = none := by
  have hall : l.all Option.isSome = false := List.all_eq_false.mpr ⟨none, h, Bool.false_ne_true⟩
  rw [mapM_id_eq_reduceOption, hall]
  rfl

theorem mapM_id_perm {l₁ l₂ : List (Option α)} (h : l₁.Perm l₂) :
    (l₁.mapM id).map Multiset.ofList = (l₂.mapM id).map Multiset.ofList := by
  have hall : l₁.all Option.isSome = l₂.all Option.isSome :=
    Bool.eq_iff_iff.mpr (by simp only [List.all_eq_true, h.mem_iff])
  rw [mapM_id_eq_reduceOption, mapM_id_eq_reduceOption, hall]
  split
  case isTrue => exact congrArg some (Multiset.coe_eq_coe.mpr (h.filterMap id))
  case isFalse => rfl

theorem mapM_id_map (f : α → β) : ∀ l : List (Option α),
    (l.mapM id).map (List.map f) = (l.map (Option.map f)).mapM id
  | [] => rfl
  | none :: _ => rfl
  | some a :: l => by
    rw [List.mapM_cons, List.map_cons, List.mapM_cons, ← mapM_id_map f l]
    cases l.mapM id <;> rfl

theorem tryCollect_toOption {order : List Nat} {results : List (Except ε α)}
    (h : order.Perm (List.range results.length)) (f : α → β) :
    (tryCollect order results).toOption.map (fun xs => Multiset.ofList (xs.map f)) =
      ((results.map fun (r : Except ε α) => r.toOption.map f).mapM id).map Multiset.ofList := by
  have hperm := ((perm_filterMap_getElem? h).map Except.toOption).map (Option.map f)
  calc (tryCollect order results).toOption.map (fun xs => Multiset.ofList (xs.map f))
      = ((((order.filterMap (results[·]?)).map Except.toOption).mapM id).map (List.map f)).map
          Multiset.ofList := by
        rw [tryCollect, toOption_mapM_id, Option.map_map]
        rfl
    _ = ((((order.filterMap (results[·]?)).map Except.toOption).map (Option.map f)).mapM id).map
          Multiset.ofList := by rw [mapM_id_map]
    _ = ((results.map fun (r : Except ε α) => r.toOption.map f).mapM id).map Multiset.ofList := by
        rw [mapM_id_perm hperm, List.map_map]
        rfl

theorem eq_ok_of_toOption {x : Except ε α} {a : α} (h : x.toOption = some a) : x = .ok a := by
  cases x <;> cases h
  rfl

theorem toOption_map {x : Except ε α} {f : α → β} : (x.map f).toOption = x.toOption.map f := by
  cases x <;> rfl

theorem toOption_bind {x : Except ε α} {f : α → Except ε β} :
    (x >>= f).toOption = x.toOption.bind fun a => (f a).toOption := by
  cases x <;> rfl

theorem rel_perm_of_map_ofList {a b : Option (List α)} (h : a.map Multiset.ofList = b.map Multiset.ofList) :
    Option.Rel List.Perm a b := by
  cases a <;> cases b
  case none.none => exact .none
  case some.some a b => exact .some (Multiset.coe_eq_coe.mp (Option.some.inj h))
  all_goals cases h

theorem tryCollect_rel {order : List Nat} {results results₀ : List (Except ε α)}
    (h : order.Perm (List.range results.length)) (hperm : results.Perm results₀) (f : α → β) :
    Option.Rel (fun xs ys => (xs.map f).Perm ys) (tryCollect order results).toOption
      ((results₀.map fun r => r.toOption.map f).mapM id) := by
  have hrel : Option.Rel List.Perm ((tryCollect order results).toOption.map (List.map f))
      ((results₀.map fun r => r.toOption.map f).mapM id) := by
    apply rel_perm_of_map_ofList
    rw [Option.map_map]
    exact (tryCollect_toOption h f).trans (mapM_id_perm (hperm.map _))
  exact rel_of_map_left hrel

theorem map_mapM_filterMap_sublist {γ δ : Type} {g : γ → Option (Option α)} {key : α → δ}
    {label : γ → Option δ} (hkey : ∀ c a, g c = some (some a) → label c = some (key a)) :
    ∀ {l : List γ} {xs : List α}, (l.filterMap g).mapM id = some xs → (xs.map key).Sublist (l.filterMap label)
  | [], xs, h => by
    cases h
    exact List.nil_sublist _
  | c :: l, xs, h => by
    have hskip := (List.sublist_cons_self c l).filterMap label
    rcases hg : g c with _ | _ | a
    case none =>
      rw [List.filterMap_cons_none hg] at h
      exact (map_mapM_filterMap_sublist hkey h).trans hskip
    case some.none =>
      rw [List.filterMap_cons_some hg, List.mapM_cons] at h
      cases h
    case some.some =>
      rw [List.filterMap_cons_some hg, List.mapM_cons] at h
      obtain ⟨xs', hxs', rfl⟩ : ∃ xs', (l.filterMap g).mapM id = some xs' ∧ xs = a :: xs' := by
        cases hrest : (l.filterMap g).mapM id <;> simp_all
      rw [List.filterMap_cons_some (hkey c a hg), List.map_cons]
      exact (map_mapM_filterMap_sublist hkey hxs').cons_cons _

theorem mapM_id_isSome_iff {l : List (Option α)} : (l.mapM id).isSome ↔ ∀ o ∈ l, o.isSome := by
  rw [mapM_id_eq_reduceOption, ← List.all_eq_true]
  cases l.all Option.isSome
  case false => exact iff_of_false Bool.false_ne_true Bool.false_ne_true
  case true => exact iff_of_true rfl rfl

theorem mapM_id_isSome {l : List (Option α)} (h : ∀ o ∈ l, o.isSome) : (l.mapM id).isSome :=
  mapM_id_isSome_iff.mpr h

theorem tryCollect_rel_perm {order : List Nat} {results : List (Except ε α)}
    (h : order.Perm (List.range results.length)) :
    Option.Rel List.Perm (tryCollect order results).toOption ((results.map Except.toOption).mapM id) := by
  have hrel := tryCollect_rel h (List.Perm.refl results) id
  simp only [List.map_id, Option.map_id_fun, id] at hrel
  exact hrel

theorem mapError_eq_ok {x : Except ε α} {f : ε → ε'} {a : α} (h : x.mapError f = .ok a) : x = .ok a := by
  cases x
  case error => cases h
  case ok =>
    cases h
    rfl

theorem map_eq_ok {x : Except ε α} {f : α → β} {b : β} (h : x.map f = .ok b) : ∃ a, x = .ok a ∧ f a = b := by
  cases x
  case error => cases h
  case ok a => exact ⟨a, rfl, Except.ok.inj h⟩

theorem toOption_mapError {x : Except ε α} {f : ε → ε'} : (x.mapError f).toOption = x.toOption := by
  cases x <;> rfl

theorem ok_bind {a : α} {f : α → Except ε β} : (Except.ok a >>= f) = f a := rfl

theorem bind_eq_ok {x : Except ε α} {f : α → Except ε β} {b : β} (h : (x >>= f) = .ok b) :
    ∃ a, x = .ok a ∧ f a = .ok b := by
  cases x
  case error => cases h
  case ok a => exact ⟨a, rfl, h⟩

theorem mapM_id_cons_eq_some {o : Option α} {l : List (Option α)} {xs : List α} (h : (o :: l).mapM id = some xs) :
    ∃ a as, o = some a ∧ l.mapM id = some as ∧ xs = a :: as := by
  rw [List.mapM_cons] at h
  cases o <;> cases hl : l.mapM id <;> simp_all

theorem eq_map_some_of_mapM_id : ∀ {l : List (Option α)} {xs : List α}, l.mapM id = some xs → l = xs.map some
  | [], xs, h => by
    cases h
    rfl
  | none :: _, _, h => by cases h
  | some a :: l, xs, h => by
    rw [List.mapM_cons] at h
    obtain ⟨xs', hxs', rfl⟩ : ∃ xs', l.mapM id = some xs' ∧ xs = a :: xs' := by
      cases hrest : l.mapM id <;> simp_all
    rw [eq_map_some_of_mapM_id hxs']
    rfl

theorem map_of_mapM_filterMap {γ δ : Type} {g : γ → Option (Option α)} {key : α → δ} {l : List γ}
    {xs : List α} (h : (l.filterMap g).mapM id = some xs) :
    xs.map key = l.filterMap fun c => (g c).bind (Option.map key) := by
  have hsome := eq_map_some_of_mapM_id h
  calc xs.map key = (xs.map some).filterMap (Option.map key) := by
        rw [List.filterMap_map]
        exact (congrFun List.filterMap_eq_map xs).symm
    _ = l.filterMap fun c => (g c).bind (Option.map key) := by
        rw [← hsome, List.filterMap_filterMap]

theorem filterMap_or_perm {f g : α → Option β} (hdisj : ∀ a, (f a).isSome → g a = none) :
    ∀ l : List α, (l.filterMap fun a => (f a).or (g a)).Perm (l.filterMap f ++ l.filterMap g)
  | [] => .nil
  | a :: l => by
    have ih := filterMap_or_perm hdisj l
    cases hf : f a with
    | some b =>
      have hg := hdisj a (by rw [hf]; rfl)
      rw [List.filterMap_cons_some (by rw [hf]; rfl), List.filterMap_cons_some hf,
        List.filterMap_cons_none hg]
      exact ih.cons b
    | none =>
      cases hg : g a with
      | some c =>
        rw [List.filterMap_cons_some (by rw [hf, hg]; rfl), List.filterMap_cons_none hf,
          List.filterMap_cons_some hg]
        exact (ih.cons c).trans List.perm_middle.symm
      | none =>
        rw [List.filterMap_cons_none (by rw [hf, hg]; rfl), List.filterMap_cons_none hf,
          List.filterMap_cons_none hg]
        exact ih

theorem mem_of_mapM_id {F : γ → Option α} {l : List γ} {xs : List α} (h : (l.map F).mapM id = some xs)
    {a : α} (ha : a ∈ xs) : ∃ c ∈ l, F c = some a := by
  have hsome : some a ∈ l.map F := by
    rw [eq_map_some_of_mapM_id h]
    exact List.mem_map_of_mem ha
  exact List.mem_map.mp hsome

theorem filterMap_of_mapM_id {F : γ → Option α} {g : α → Option β} {g' : γ → Option β}
    (hg : ∀ c a, F c = some a → g a = g' c) :
    ∀ {l : List γ} {xs : List α}, (l.map F).mapM id = some xs → xs.filterMap g = l.filterMap g'
  | [], xs, h => by
    cases h
    rfl
  | c :: l, xs, h => by
    obtain ⟨a, as, hc, hl, rfl⟩ := mapM_id_cons_eq_some h
    rw [List.filterMap_cons, List.filterMap_cons, hg c a hc, filterMap_of_mapM_id hg hl]

theorem filterMap_map_eq_map_filterMap {γ δ : Type} {r : γ → δ} {g' : δ → Option β} {g : γ → Option α}
    {f : α → β} (hcomm : ∀ c, g' (r c) = (g c).map f) (l : List γ) :
    (l.map r).filterMap g' = (l.filterMap g).map f := by
  rw [List.filterMap_map, List.map_filterMap]
  exact congrArg (List.filterMap · l) (funext hcomm)

theorem mem_of_mapM_id_eq_ok : ∀ {l : List (Except ε α)} {xs : List α}, l.mapM id = .ok xs →
    ∀ {a : α}, a ∈ xs → .ok a ∈ l
  | [], xs, h, a, ha => by
    cases h
    cases ha
  | .error _ :: _, _, h, _, _ => by cases h
  | .ok b :: l, xs, h, a, ha => by
    rw [List.mapM_cons] at h
    cases hrest : l.mapM id with
    | error e =>
      rw [hrest] at h
      cases h
    | ok bs =>
      rw [hrest] at h
      cases h
      rcases List.mem_cons.mp ha with rfl | ha
      case inl => exact List.mem_cons_self
      case inr => exact List.mem_cons_of_mem _ (mem_of_mapM_id_eq_ok hrest ha)

theorem mem_tryCollect {order : List Nat} {results : List (Except ε α)} {xs : List α}
    (h : tryCollect order results = .ok xs) {a : α} (ha : a ∈ xs) : .ok a ∈ results := by
  obtain ⟨i, -, hi⟩ := List.mem_filterMap.mp (mem_of_mapM_id_eq_ok h ha)
  exact List.mem_of_getElem? hi

end Collect

section Conversions

variable {ε α β : Type}

theorem mapM_eq_some_filterMap {f : α → Option β} :
    ∀ {l : List α}, (∀ a ∈ l, (f a).isSome) → l.mapM f = some (l.filterMap f)
  | [], _ => rfl
  | a :: l, h => by
    obtain ⟨b, hb⟩ := Option.isSome_iff_exists.mp (h a List.mem_cons_self)
    rw [List.mapM_cons, List.filterMap_cons_some hb, hb,
      mapM_eq_some_filterMap fun a' ha' => h a' (List.mem_cons_of_mem a ha')]
    rfl

theorem mapM_filterMap_of_inverse {f : α → Option β} {g : β → Except ε α} :
    ∀ {l : List α}, (∀ a ∈ l, ∃ b, f a = some b ∧ g b = .ok a) → (l.filterMap f).mapM g = .ok l
  | [], _ => rfl
  | a :: l, h => by
    obtain ⟨b, hb, hg⟩ := h a List.mem_cons_self
    rw [List.filterMap_cons_some hb, List.mapM_cons, hg,
      mapM_filterMap_of_inverse fun a' ha' => h a' (List.mem_cons_of_mem a ha')]
    rfl

theorem mapM_map_of_inverse {f : α → β} {g : β → Except ε α} :
    ∀ {l : List α}, (∀ a ∈ l, g (f a) = .ok a) → (l.map f).mapM g = .ok l
  | [], _ => rfl
  | a :: l, h => by
    rw [List.map_cons, List.mapM_cons, h a List.mem_cons_self,
      mapM_map_of_inverse fun a' ha' => h a' (List.mem_cons_of_mem a ha')]
    rfl

end Conversions

section Sums

variable {α : Type}

theorem mem_list_sum {L : List (Multiset α)} {a : α} : a ∈ L.sum ↔ ∃ s ∈ L, a ∈ s := by
  induction L with
  | nil => simp
  | cons s L ih => simp [List.sum_cons, Multiset.mem_add, ih]

theorem card_list_sum (L : List (Multiset α)) : Multiset.card L.sum = (L.map Multiset.card).sum := by
  induction L with
  | nil => rfl
  | cons s L ih => simp [List.sum_cons, ih]

theorem le_list_sum {L : List (Multiset α)} {s : Multiset α} (h : s ∈ L) : s ≤ L.sum := by
  induction L with
  | nil => cases h
  | cons t L ih =>
    rw [List.sum_cons]
    rcases List.mem_cons.mp h with rfl | hs
    case inl => exact Multiset.le_add_right _ _
    case inr => exact (ih hs).trans (Multiset.le_add_left _ _)

end Sums

section Sorting

variable {α κ : Type} [LinearOrder κ] {key : α → κ}

theorem pairwise_sortBy (l : List α) : (sortBy key l).Pairwise fun a b => key a ≤ key b := by
  have : Std.Total fun a b : α => key a ≤ key b := ⟨fun a b => le_total (key a) (key b)⟩
  have : IsTrans α fun a b : α => key a ≤ key b := ⟨fun _ _ _ => le_trans⟩
  exact List.pairwise_insertionSort _ l

theorem sortBy_eq_of_perm_of_injOn {l l' : List α} (h : l.Perm l')
    (hkeys : ∀ a ∈ l, ∀ b ∈ l, key a = key b → a = b) : sortBy key l = sortBy key l' := by
  have hmem : ∀ a, a ∈ sortBy key l ↔ a ∈ l := fun a => (List.perm_insertionSort _ l).mem_iff
  have hmem' : ∀ a, a ∈ sortBy key l' ↔ a ∈ l := fun a => ((List.perm_insertionSort _ l').trans h.symm).mem_iff
  refine List.Perm.eq_of_pairwise ?_ (pairwise_sortBy l) (pairwise_sortBy l')
    (((List.perm_insertionSort _ l).trans h).trans (List.perm_insertionSort _ l').symm)
  intro a b ha hb hab hba
  exact hkeys a ((hmem a).mp ha) b ((hmem' b).mp hb) (le_antisymm hab hba)

theorem sortBy_eq_of_perm {l l' : List α} (h : l.Perm l') (hkeys : (l.map key).Nodup) :
    sortBy key l = sortBy key l' :=
  sortBy_eq_of_perm_of_injOn h fun _ ha _ hb hab => List.inj_on_of_nodup_map hkeys ha hb hab

theorem sortBy_id_eq_of_perm {l l' : List κ} (h : l.Perm l') : sortBy id l = sortBy id l' :=
  sortBy_eq_of_perm_of_injOn h fun _ _ _ _ hab => hab

theorem map_sortBy (l : List α) : (sortBy key l).map key = sortBy id (l.map key) :=
  List.map_insertionSort _ _ key l fun _ _ _ _ => Iff.rfl

theorem pairwise_lt_sortBy {l : List α} (hkeys : (l.map key).Nodup) :
    (sortBy key l).Pairwise fun a b => key a < key b := by
  have hne : (sortBy key l).Pairwise fun a b => key a ≠ key b :=
    List.pairwise_map.mp (((List.perm_insertionSort _ l).map key).nodup_iff.mpr hkeys)
  exact ((pairwise_sortBy l).and hne).imp fun h => lt_of_le_of_ne h.1 h.2

theorem perm_sortBy (l : List α) : (sortBy key l).Perm l :=
  List.perm_insertionSort _ l

end Sorting

end Collect
