import NativeLink.Lib.Path

-- Paths as Rust's `std::path::Path` takes them apart on Unix, and the platform-neutral relative
-- paths of the `relative-path` crate (1.9) that a `Path` is converted to. Both are kept as lists of
-- components, a name as its characters. `StdPath` covers `components`, `starts_with`,
-- `file_name` and `join`; `RelativePath` covers `components`, `from_path`, `relative`,
-- `normalize` and `into_string`.

namespace StdPath

inductive Component
  | rootDir
  | curDir
  | parentDir
  | normal (name : List Char)
  deriving DecidableEq, Repr

-- A part between separators that is neither empty nor `.`.
def part (name : List Char) : Component :=
  if name = ['.', '.'] then .parentDir else .normal name

-- The parts after a root or a leading `.`: the empty ones and `.` dropped.
def namesOf (cs : List Char) : List Component :=
  ((cs.splitOn '/').filter fun p => p ≠ [] ∧ p ≠ ['.']).map part

def names (path : String) : List Component :=
  namesOf path.toList

-- `Path::components`: a root for a leading `/`, a `.` only as the first part of a relative path,
-- then the names.
def components (path : String) : List Component :=
  if path.toList.head? = some '/' then .rootDir :: names path
  else if (path.toList.splitOn '/').head? = some ['.'] then .curDir :: names path
  else names path

-- `Path::starts_with`: the components of `base` begin those of `path`.
def startsWith (path base : String) : Bool :=
  (components base).isPrefixOf (components path)

-- `Path::file_name`: the last component, when it is a name.
def fileName (path : String) : Option (List Char) :=
  match (components path).getLast? with
  | some (.normal name) => some name
  | _ => none

-- `Path::join`, as `PathBuf::push` builds it: an absolute path replaces the base, any other is
-- appended after a `/` unless the base is empty or ends in one.
def join (base path : String) : String :=
  if path.toList.head? = some '/' then path
  else if base.toList.getLast?.all (· = '/') then base ++ path
  else base ++ "/" ++ path

theorem rootDir_not_mem_names (path : String) : Component.rootDir ∉ names path := by
  intro h
  obtain ⟨p, -, hp⟩ := List.mem_map.mp h
  unfold part at hp
  split at hp <;> cases hp

theorem namesOf_append_sep (xs ys : List Char) : namesOf (xs ++ '/' :: ys) = namesOf xs ++ namesOf ys := by
  simp only [namesOf, List.splitOn_append_cons_self, List.filter_append, List.map_append]

theorem names_of_simpleName {name : String} (h : Path.SimpleName name) : names name = [.normal name.toList] := by
  obtain ⟨hne, hsep, hdot, hdotdot⟩ := h
  simp [names, namesOf, List.splitOn_eq_singleton hsep, hne, hdot, part, hdotdot]

theorem fileName_of_names {path : String} {ns : List Component} {n : List Char}
    (h : names path = ns ++ [.normal n]) : fileName path = some n := by
  unfold fileName components
  split_ifs <;> simp only [h, ← List.cons_append, List.getLast?_concat]

theorem names_join (base path : String) : ∃ pre, names (join base path) = pre ++ names path := by
  unfold join
  split_ifs with habs hsep
  case pos => exact ⟨[], rfl⟩
  case pos =>
    cases hlast : base.toList.getLast? with
    | none =>
      refine ⟨[], ?_⟩
      rw [names, String.toList_append, List.getLast?_eq_none_iff.mp hlast, List.nil_append, List.nil_append]
      rfl
    | some c =>
      rw [hlast, Option.all_some, decide_eq_true_eq] at hsep
      obtain ⟨pre, hpre⟩ := List.getLast?_eq_some_iff.mp hlast
      refine ⟨namesOf pre, ?_⟩
      rw [names, String.toList_append, hpre, hsep, List.append_assoc, List.singleton_append, namesOf_append_sep]
      rfl
  case neg =>
    refine ⟨names base, ?_⟩
    rw [names, String.toList_append, String.toList_append, List.append_assoc,
      show "/".toList ++ path.toList = '/' :: path.toList from rfl, namesOf_append_sep]
    rfl

theorem fileName_join_join {name : String} (base : String) (h : Path.SimpleName name) :
    fileName (join base (join base name)) = some name.toList := by
  obtain ⟨pre, hpre⟩ := names_join base (join base name)
  obtain ⟨pre', hpre'⟩ := names_join base name
  rw [hpre', names_of_simpleName h, ← List.append_assoc] at hpre
  exact fileName_of_names hpre

theorem components_of_absolute {path : String} (h : path.toList.head? = some '/') :
    components path = .rootDir :: names path := by
  rw [components, if_pos h]

theorem absolute_of_components {path : String} {cs : List Component}
    (h : components path = .rootDir :: cs) : path.toList.head? = some '/' := by
  unfold components at h
  split at h
  case isTrue habs => exact habs
  case isFalse =>
    split at h
    case isTrue => cases h
    case isFalse => exact absurd (h ▸ List.mem_cons_self) (rootDir_not_mem_names path)

theorem startsWith_absolute {path base : String} (hbase : base.toList.head? = some '/')
    (h : startsWith path base = true) :
    path.toList.head? = some '/' ∧ ∃ rest, names path = names base ++ rest := by
  rw [startsWith, List.isPrefixOf_iff_prefix, components_of_absolute hbase] at h
  obtain ⟨rest, hrest⟩ := h
  have habs := absolute_of_components hrest.symm
  rw [components_of_absolute habs, List.cons_append, List.cons.injEq] at hrest
  exact ⟨habs, rest, hrest.2.symm⟩

end StdPath

namespace RelativePath

inductive Component
  | curDir
  | parentDir
  | normal (name : List Char)
  deriving DecidableEq, Repr

-- The component a part between separators is, if any.
def part (p : List Char) : Option Component :=
  if p = [] then none
  else if p = ['.'] then some .curDir
  else if p = ['.', '.'] then some .parentDir
  else some (.normal p)

-- `RelativePath::components`: the parts between `/`, empty ones dropped.
def components (path : String) : List Component :=
  (path.toList.splitOn '/').filterMap part

inductive FromPathErrorKind
  | nonRelative
  | nonUtf8
  | badSeparator
  deriving DecidableEq, Repr

-- The `Display` of a `FromPathError`.
def FromPathErrorKind.message : FromPathErrorKind → String
  | .nonRelative => "path contains non-relative component"
  | .nonUtf8 => "path contains non-utf8 component"
  | .badSeparator => "path contains platform-specific path separator"

-- The loop of `from_path` over Rust's and the crate's components side by side, as far as the
-- shorter list goes.
def agree : List StdPath.Component → List Component → Option FromPathErrorKind
  | .rootDir :: _, _ :: _ => some .nonRelative
  | .curDir :: as, .curDir :: bs => agree as bs
  | .parentDir :: as, .parentDir :: bs => agree as bs
  | .normal a :: as, .normal b :: bs => if a = b then agree as bs else some .badSeparator
  | _ :: _, _ :: _ => some .badSeparator
  | _, _ => none

-- `RelativePath::from_path`: the path's components, if both ways of taking it apart agree. A Lean
-- string is UTF-8, so `NonUtf8` does not arise.
def fromPath (path : String) : Except FromPathErrorKind (List Component) :=
  match agree (StdPath.components path) (components path) with
  | some kind => .error kind
  | none => .ok (components path)

-- One step of `relative_traversal`: `.` dropped, `..` taking back the last name, or kept when
-- there is none to take back.
def traverse (buf : List Component) : Component → List Component
  | .curDir => buf
  | .parentDir =>
    match buf.getLast? with
    | some .parentDir | none => buf ++ [.parentDir]
    | some _ => buf.dropLast
  | .normal name => buf ++ [.normal name]

def traversal (cs : List Component) : List Component :=
  cs.foldl traverse []

-- The loop of `relative` that strips the common prefix: what is left of both.
def stripCommon : List Component → List Component → List Component × List Component
  | f :: fs, t :: ts => if f = t then stripCommon fs ts else (f :: fs, t :: ts)
  | fs, ts => (fs, ts)

-- `RelativePath::relative`: the way from `base` to `path`, a `..` for each component of `base`
-- left over; the empty path when a `..` of `base` is left, whose name is not known.
def relative (base path : List Component) : List Component :=
  match stripCommon (traversal base) (traversal path) with
  | (.parentDir :: _, _) => []
  | (fs, ts) => fs.map (fun _ => .parentDir) ++ ts

-- `RelativePath::normalize`.
def normalize (cs : List Component) : List Component :=
  traversal cs

def Component.chars : Component → List Char
  | .curDir => ['.']
  | .parentDir => ['.', '.']
  | .normal name => name

-- `into_string`: the components between `/`.
def render (cs : List Component) : String :=
  String.ofList ((cs.map Component.chars).intersperse ['/']).flatten

theorem components_ne_nil_of_names {path : String} (h : StdPath.names path ≠ []) : components path ≠ [] := by
  obtain ⟨c, hc⟩ := List.exists_mem_of_ne_nil _ h
  obtain ⟨p, hp, -⟩ := List.mem_map.mp hc
  obtain ⟨hmem, hname⟩ := List.mem_filter.mp hp
  simp only [decide_eq_true_eq] at hname
  intro hnil
  have hnone := List.filterMap_eq_nil_iff.mp hnil p hmem
  simp only [part, hname.1, hname.2, if_false] at hnone
  split at hnone <;> cases hnone

theorem fromPath_of_absolute {path : String} (habs : path.toList.head? = some '/')
    (hnames : StdPath.names path ≠ []) : fromPath path = .error .nonRelative := by
  obtain ⟨c, cs, hcs⟩ := List.exists_cons_of_ne_nil (components_ne_nil_of_names hnames)
  rw [fromPath, StdPath.components_of_absolute habs, hcs]
  rfl

end RelativePath
