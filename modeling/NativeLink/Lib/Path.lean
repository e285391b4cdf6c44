import Mathlib

-- Paths as the kernel reads them, without symlinks: a string split at `/`, whose empty and `.`
-- components name nothing and whose `..` goes up one directory. `resolve` is the directory list
-- from the root that a path leads to; a path lies within a directory when the directory's list is
-- a prefix of the path's.

namespace Path

-- The components of a path, as `Path::components` gives them: empty and `.` components dropped.
def components (path : String) : List (List Char) :=
  (path.toList.splitOn '/').filter fun c => c ≠ [] ∧ c ≠ ['.']

-- One component further: `..` goes up, staying at the root; any other goes down.
def resolveStep (acc : List (List Char)) (c : List Char) : List (List Char) :=
  if c = ['.', '.'] then acc.dropLast else acc ++ [c]

-- Where a list of components leads from the root.
def resolveComponents (cs : List (List Char)) : List (List Char) :=
  cs.foldl resolveStep []

def resolve (path : String) : List (List Char) :=
  resolveComponents (components path)

-- The components of `Path::parent`: all but the last, and none for a path with no component.
def parent (path : String) : Option (List (List Char)) :=
  match components path with
  | [] => none
  | cs => some cs.dropLast

-- A path none of whose components goes up.
def StaysBelow (path : String) : Prop :=
  ['.', '.'] ∉ components path

instance (path : String) : Decidable (StaysBelow path) :=
  inferInstanceAs (Decidable (_ ∉ _))

-- A name that is one component going down: not empty, no separator, neither `.` nor `..`.
def SimpleName (name : String) : Prop :=
  name.toList ≠ [] ∧ '/' ∉ name.toList ∧ name.toList ≠ ['.'] ∧ name.toList ≠ ['.', '.']

instance (name : String) : Decidable (SimpleName name) :=
  inferInstanceAs (Decidable (_ ∧ _))

variable {dir name : String} {cs cs' : List (List Char)}

theorem components_join : components (dir ++ "/" ++ name) = components dir ++ components name := by
  simp only [components, String.toList_append]
  rw [List.append_assoc, show "/".toList ++ name.toList = '/' :: name.toList from rfl,
    List.splitOn_append_cons_self, List.filter_append]

theorem components_of_simpleName (h : SimpleName name) : components name = [name.toList] := by
  obtain ⟨hne, hsep, hdot, -⟩ := h
  simp only [components, List.splitOn_eq_singleton hsep]
  simp [hne, hdot]

theorem foldl_resolveStep (h : ∀ c ∈ cs', c ≠ ['.', '.']) :
    ∀ acc, cs'.foldl resolveStep acc = acc ++ cs' := by
  induction cs'
  case nil => simp
  case cons c cs' ih =>
    intro acc
    have hc : c ≠ ['.', '.'] := h c List.mem_cons_self
    rw [List.foldl_cons, resolveStep, if_neg hc, ih (fun c' hc' => h c' (List.mem_cons_of_mem _ hc'))]
    simp

theorem resolveComponents_append (h : ∀ c ∈ cs', c ≠ ['.', '.']) :
    resolveComponents (cs ++ cs') = resolveComponents cs ++ cs' := by
  rw [resolveComponents, List.foldl_append, foldl_resolveStep h]
  rfl

theorem SimpleName.staysBelow (h : SimpleName name) : StaysBelow name := by
  rw [StaysBelow, components_of_simpleName h, List.mem_singleton]
  exact fun hdd => h.2.2.2 hdd.symm

theorem resolve_join (h : StaysBelow name) : resolve (dir ++ "/" ++ name) = resolve dir ++ components name := by
  rw [resolve, components_join, resolveComponents_append fun c hc hdd => h (hdd ▸ hc)]
  rfl

theorem resolve_join_simpleName (h : SimpleName name) :
    resolve (dir ++ "/" ++ name) = resolve dir ++ [name.toList] := by
  rw [resolve_join h.staysBelow, components_of_simpleName h]

theorem prefix_resolve_join (h : StaysBelow name) : resolve dir <+: resolve (dir ++ "/" ++ name) := by
  rw [resolve_join h]
  exact List.prefix_append _ _

theorem parent_join (hne : components name ≠ []) :
    parent (dir ++ "/" ++ name) = some (components dir ++ (components name).dropLast) := by
  have hjoin : components dir ++ components name ≠ [] := by simp [hne]
  rw [parent, components_join]
  split
  case h_1 hnil => exact absurd hnil hjoin
  case h_2 => rw [List.dropLast_append_of_ne_nil hne]

theorem parent_join_within (dir : String) (h : StaysBelow name) (hne : components name ≠ []) :
    ∃ cs, parent (dir ++ "/" ++ name) = some cs ∧ resolve dir <+: resolveComponents cs := by
  have hdown : ∀ c ∈ (components name).dropLast, c ≠ ['.', '.'] :=
    fun c hc hdd => h (hdd ▸ (List.dropLast_sublist _).subset hc)
  refine ⟨_, parent_join hne, ?_⟩
  rw [resolveComponents_append hdown]
  exact List.prefix_append _ _

end Path
