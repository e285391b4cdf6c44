import NativeLink.Worker.RunningActionsManager
import NativeLink.Lib.RelativePath
import NativeLink.Lib.Collect
import Mathlib

-- How `nativelink-worker/src/running_actions_manager.rs` uploads an action's output directories
-- and symlinks: `upload_directory` reads a directory, pushes a future for each entry into one of
-- three `FuturesUnordered`, gathers them, sorts the nodes of each kind by name and returns the
-- directory's `Directory` with the list of the `Directory` messages below it, itself last;
-- `upload_symlink` records a symlink's target, made relative to the work directory when it lies
-- inside. The order in which `read_dir` lists the entries and the order in which the futures of
-- each kind finish are a `Schedule`. Reading and hashing a file, and uploading a message to the
-- CAS, succeed: a file entry holds the digest and mode `upload_file` computes, and `digestOf` is
-- the digest `serialize_and_upload_message` returns for a `Directory`.

namespace NativeLink.RunningActionsManager

open Collect

/-! ## `upload_symlink` -/

inductive NameOrPath
  | name (name : String)
  | path (path : String)
  deriving DecidableEq, Repr

structure SymlinkInfo where
  nameOrPath : NameOrPath
  target : String
  deriving DecidableEq, Repr

-- `make_err!(Code::Internal, "Could not convert {} to RelativePath", v)`.
def relativePathErr (kind : RelativePath.FromPathErrorKind) : Error :=
  Error.new .internal ("Could not convert " ++ kind.message ++ " to RelativePath")

-- `err_tip` on a missing file name: an `Internal` error with the tip.
def fileNameErr (path : String) : Error :=
  ⟨.internal, ["Expected file_name to exist on " ++ path.quote]⟩

-- The target `upload_symlink` records for the target `read_link` returns: made relative to the
-- work directory when it lies inside.
def symlinkTarget (fullWorkDirectoryPath fullTargetPath : String) : Except Error String :=
  if StdPath.startsWith fullTargetPath fullWorkDirectoryPath then do
    let fullTargetPath ← (RelativePath.fromPath fullTargetPath).mapError relativePathErr
    let workDirectory ← (RelativePath.fromPath fullWorkDirectoryPath).mapError relativePathErr
    pure (RelativePath.render (RelativePath.normalize (RelativePath.relative workDirectory fullTargetPath)))
  else pure fullTargetPath

-- `upload_symlink` of the symlink at `fullPath`, for the target `read_link` returns.
def uploadSymlink (fullPath fullWorkDirectoryPath fullTargetPath : String) : Except Error SymlinkInfo := do
  let target ← symlinkTarget fullWorkDirectoryPath fullTargetPath
  let name ←
    match StdPath.fileName fullPath with
    | some name => pure (String.ofList name)
    | none => throw (fileNameErr fullPath)
  pure ⟨.name name, target⟩

-- `From<SymlinkInfo> for SymlinkNode`. The source panics on a `Path`, which `upload_symlink`
-- never returns.
def SymlinkInfo.toNode (info : SymlinkInfo) : SymlinkNode :=
  match info.nameOrPath with
  | .name name => ⟨name, info.target⟩
  | .path path => ⟨path, info.target⟩

/-! ## `upload_directory` -/

-- What `read_dir` lists, with what the walk reads of each entry: a file's digest and mode as
-- `upload_file` computes them, a symlink's target as `read_link` returns it, a directory's own
-- entries as its `read_dir` lists them, and an entry of any other type, which is skipped.
mutual
inductive Entry
  | file (name : String) (digest : DigestInfo) (isExecutable : Bool)
  | directory (name : String) (contents : Dir)
  | symlink (name : String) (target : String)
  | other (name : String)
inductive Dir
  | mk (entries : List Entry)
end

def Entry.name : Entry → String
  | .file name _ _ => name
  | .directory name _ => name
  | .symlink name _ => name
  | .other name => name

-- For the directory at `path` (the names from the uploaded directory down) and a number of
-- entries or futures: the order in which `read_dir` lists the entries, and the orders in which
-- the futures of each kind finish, as lists of indices.
structure Schedule where
  readDir : List String → Nat → List Nat
  files : List String → Nat → List Nat
  directories : List String → Nat → List Nat
  symlinks : List String → Nat → List Nat

def Schedule.Valid (schedule : Schedule) : Prop :=
  ∀ path count, (schedule.readDir path count).Perm (List.range count) ∧
    (schedule.files path count).Perm (List.range count) ∧
    (schedule.directories path count).Perm (List.range count) ∧
    (schedule.symlinks path count).Perm (List.range count)

-- The future the loop pushes for an entry, by the `FuturesUnordered` it goes into.
inductive EntryFuture
  | file (result : Except Error FileNode)
  | directory (result : Except Error (DirectoryNode × List ProtoDirectory))
  | symlink (result : Except Error SymlinkNode)
  | skipped

def EntryFuture.file? : EntryFuture → Option (Except Error FileNode)
  | .file result => some result
  | _ => none

def EntryFuture.directory? : EntryFuture → Option (Except Error (DirectoryNode × List ProtoDirectory))
  | .directory result => some result
  | _ => none

def EntryFuture.symlink? : EntryFuture → Option (Except Error SymlinkNode)
  | .symlink result => some result
  | _ => none

-- `full_dir_path.join(entry.path())`, where `entry.path()` is the directory's path joined with
-- the entry's name.
def entryPath (fullDirPath name : String) : String :=
  StdPath.join fullDirPath (StdPath.join fullDirPath name)

-- The `FileInfo` of `upload_file`, as a `FileNode`.
def fileNode (fullPath : String) (digest : DigestInfo) (isExecutable : Bool) : Except Error FileNode :=
  match StdPath.fileName fullPath with
  | some name => .ok ⟨String.ofList name, some digest, isExecutable⟩
  | none => .error (fileNameErr fullPath)

-- After the loop: `try_join3` of the three gatherings, each in the order its futures finish; the
-- nodes of each kind sorted by name; the directory's message after those of its subdirectories,
-- which come in the order the subdirectories finished. With several failures, which error is
-- returned depends on timing; the model returns the files' first.
def assemble (schedule : Schedule) (path : List String) (futures : List EntryFuture) :
    Except Error (ProtoDirectory × List ProtoDirectory) := do
  let files := futures.filterMap EntryFuture.file?
  let dirs := futures.filterMap EntryFuture.directory?
  let symlinks := futures.filterMap EntryFuture.symlink?
  let fileNodes ← tryCollect (schedule.files path files.length) files
  let dirEntries ← tryCollect (schedule.directories path dirs.length) dirs
  let symlinkNodes ← tryCollect (schedule.symlinks path symlinks.length) symlinks
  let directory : ProtoDirectory :=
    ⟨sortBy (·.name) fileNodes, sortBy (·.name) (dirEntries.map (·.1)), sortBy (·.name) symlinkNodes⟩
  pure (directory, (dirEntries.map (·.2)).flatten ++ [directory])

section Upload

variable (schedule : Schedule) (digestOf : ProtoDirectory → DigestInfo) (fullWorkDirectory : String)

mutual
-- `upload_directory` of the directory at `fullDirPath`.
def uploadDirectory (path : List String) (fullDirPath : String) : Dir → Except Error (ProtoDirectory × List ProtoDirectory)
  | .mk entries =>
    let futures := entryFutures path fullDirPath entries
    assemble schedule path ((schedule.readDir path futures.length).filterMap (futures[·]?))

-- The future pushed for each entry, in the order of `entries`.
def entryFutures (path : List String) (fullDirPath : String) : List Entry → List EntryFuture
  | [] => []
  | .file name digest isExecutable :: entries =>
    .file (fileNode (entryPath fullDirPath name) digest isExecutable) :: entryFutures path fullDirPath entries
  | .directory name contents :: entries =>
    let fullPath := entryPath fullDirPath name
    .directory ((uploadDirectory (path ++ [name]) fullPath contents).bind fun (dir, allDirs) =>
        match StdPath.fileName fullPath with
        | some directoryName => .ok (⟨String.ofList directoryName, some (digestOf dir)⟩, allDirs)
        | none => .error (fileNameErr fullDirPath)) ::
      entryFutures path fullDirPath entries
  | .symlink name target :: entries =>
    .symlink ((uploadSymlink (entryPath fullDirPath name) fullWorkDirectory target).map SymlinkInfo.toNode) ::
      entryFutures path fullDirPath entries
  | .other _ :: entries => .skipped :: entryFutures path fullDirPath entries
end

end Upload

deriving instance DecidableEq for FileNode, DirectoryNode, SymlinkNode, ProtoDirectory

-- `ProtoTree`.
structure ProtoTree where
  root : ProtoDirectory
  children : List ProtoDirectory

-- The `Tree` `inner_upload_results` uploads for an output directory at `fullPath`.
def uploadTree (schedule : Schedule) (digestOf : ProtoDirectory → DigestInfo) (workDirectory fullPath : String)
    (d : Dir) : Except Error ProtoTree :=
  (uploadDirectory schedule digestOf workDirectory [] fullPath d).map fun (rootDir, children) => ⟨rootDir, children⟩

/-! ## What an upload comes to

Whatever the schedule, an upload comes to whether it succeeded, the root's `Directory` and the
multiset of the messages below it. `uploadSpec` computes that from the entries alone. -/

-- A pair whose list is read without its order.
def forgetOrder {α β : Type} (p : α × List β) : α × Multiset β :=
  (p.1, p.2)

-- What an entry's future comes to: its node, if it succeeded, and for a directory the messages
-- below it.
inductive EntryResult
  | file (node : Option FileNode)
  | directory (result : Option (DirectoryNode × Multiset ProtoDirectory))
  | symlink (node : Option SymlinkNode)
  | skipped

def EntryResult.file? : EntryResult → Option (Option FileNode)
  | .file node => some node
  | _ => none

def EntryResult.directory? : EntryResult → Option (Option (DirectoryNode × Multiset ProtoDirectory))
  | .directory result => some result
  | _ => none

def EntryResult.symlink? : EntryResult → Option (Option SymlinkNode)
  | .symlink node => some node
  | _ => none

-- The name of the node a future succeeded with.
def EntryResult.name? : EntryResult → Option String
  | .file node => node.map (·.name)
  | .directory result => result.map (·.1.name)
  | .symlink node => node.map (·.name)
  | .skipped => none

def EntryResult.failed : EntryResult → Bool
  | .file node => node.isNone
  | .directory result => result.isNone
  | .symlink node => node.isNone
  | .skipped => false

def EntryFuture.result : EntryFuture → EntryResult
  | .file result => .file result.toOption
  | .directory result => .directory (result.toOption.map forgetOrder)
  | .symlink result => .symlink result.toOption
  | .skipped => .skipped

-- The directory's `Directory`, its nodes sorted by name, and the messages below it with itself.
def gather (fileNodes : List FileNode) (dirEntries : List (DirectoryNode × Multiset ProtoDirectory))
    (symlinkNodes : List SymlinkNode) : ProtoDirectory × Multiset ProtoDirectory :=
  let directory : ProtoDirectory :=
    ⟨sortBy (·.name) fileNodes, sortBy (·.name) (dirEntries.map (·.1)), sortBy (·.name) symlinkNodes⟩
  (directory, (dirEntries.map (·.2)).sum + {directory})

-- The gathering, with the futures' results in the order they were pushed.
def assembleSpec (results : List EntryResult) : Option (ProtoDirectory × Multiset ProtoDirectory) := do
  let fileNodes ← (results.filterMap EntryResult.file?).mapM id
  let dirEntries ← (results.filterMap EntryResult.directory?).mapM id
  let symlinkNodes ← (results.filterMap EntryResult.symlink?).mapM id
  pure (gather fileNodes dirEntries symlinkNodes)

section Spec

variable (digestOf : ProtoDirectory → DigestInfo) (fullWorkDirectory : String)

mutual
-- The directory's `Directory` and the messages below it, itself included.
def uploadSpec (fullDirPath : String) : Dir → Option (ProtoDirectory × Multiset ProtoDirectory)
  | .mk entries => assembleSpec (entryResults fullDirPath entries)

def entryResults (fullDirPath : String) : List Entry → List EntryResult
  | [] => []
  | .file name digest isExecutable :: entries =>
    .file (fileNode (entryPath fullDirPath name) digest isExecutable).toOption :: entryResults fullDirPath entries
  | .directory name contents :: entries =>
    let fullPath := entryPath fullDirPath name
    .directory ((uploadSpec fullPath contents).bind fun (dir, allDirs) =>
        (StdPath.fileName fullPath).map fun directoryName =>
          (⟨String.ofList directoryName, some (digestOf dir)⟩, allDirs)) ::
      entryResults fullDirPath entries
  | .symlink name target :: entries =>
    .symlink ((uploadSymlink (entryPath fullDirPath name) fullWorkDirectory target).toOption.map
        SymlinkInfo.toNode) ::
      entryResults fullDirPath entries
  | .other _ :: entries => .skipped :: entryResults fullDirPath entries
end

end Spec

mutual
-- A directory as a file system lists it: each entry's name is one component, and no two entries
-- of a directory share a name.
def Dir.wellNamed : Dir → Bool
  | .mk entries => decide (entries.map Entry.name).Nodup && entriesWellNamed entries

def entriesWellNamed : List Entry → Bool
  | [] => true
  | .file name _ _ :: entries => decide (Path.SimpleName name) && entriesWellNamed entries
  | .directory name contents :: entries =>
    decide (Path.SimpleName name) && contents.wellNamed && entriesWellNamed entries
  | .symlink name _ :: entries => decide (Path.SimpleName name) && entriesWellNamed entries
  | .other name :: entries => decide (Path.SimpleName name) && entriesWellNamed entries
end

mutual
-- The symlinks at or below a directory, by the path `upload_directory` reads each at, with the
-- target `read_link` returns.
def Dir.symlinks (fullDirPath : String) : Dir → List (String × String)
  | .mk entries => entriesSymlinks fullDirPath entries

def entriesSymlinks (fullDirPath : String) : List Entry → List (String × String)
  | [] => []
  | .file _ _ _ :: entries => entriesSymlinks fullDirPath entries
  | .directory name contents :: entries =>
    contents.symlinks (entryPath fullDirPath name) ++ entriesSymlinks fullDirPath entries
  | .symlink name target :: entries => (entryPath fullDirPath name, target) :: entriesSymlinks fullDirPath entries
  | .other _ :: entries => entriesSymlinks fullDirPath entries
end

/-! ## Gathering in any order -/

section Gather

theorem sum_map_ofList {α : Type} (L : List (List α)) : (L.map Multiset.ofList).sum = (L.flatten : Multiset α) := by
  rw [← Multiset.sum_coe, ← Multiset.coe_join]
  rfl

theorem gather_perm {F F' : List FileNode} {D D' : List (DirectoryNode × Multiset ProtoDirectory)}
    {S S' : List SymlinkNode} (hF : F.Perm F') (hD : D.Perm D') (hS : S.Perm S')
    (hFn : (F'.map (·.name)).Nodup) (hDn : ((D'.map (·.1)).map (·.name)).Nodup) (hSn : (S'.map (·.name)).Nodup) :
    gather F D S = gather F' D' S' := by
  have hdirs := hD.map (·.1)
  rw [gather, gather, sortBy_eq_of_perm hF ((hF.map _).nodup_iff.mpr hFn),
    sortBy_eq_of_perm hdirs ((hdirs.map _).nodup_iff.mpr hDn),
    sortBy_eq_of_perm hS ((hS.map _).nodup_iff.mpr hSn), (hD.map (·.2)).sum_eq]

theorem gather_forgetOrder (F : List FileNode) (D : List (DirectoryNode × List ProtoDirectory))
    (S : List SymlinkNode) :
    gather F (D.map forgetOrder) S =
      forgetOrder (⟨sortBy (·.name) F, sortBy (·.name) (D.map (·.1)), sortBy (·.name) S⟩,
        (D.map (·.2)).flatten ++ [⟨sortBy (·.name) F, sortBy (·.name) (D.map (·.1)), sortBy (·.name) S⟩]) := by
  have hfst : (D.map forgetOrder).map (·.1) = D.map (·.1) := by
    rw [List.map_map]
    rfl
  have hsnd : (D.map forgetOrder).map (·.2) = (D.map (·.2)).map Multiset.ofList := by
    rw [List.map_map, List.map_map]
    rfl
  rw [gather, hfst, hsnd, sum_map_ofList, forgetOrder, ← Multiset.coe_singleton, Multiset.coe_add]

theorem assemble_toOption (schedule : Schedule) (path : List String) (futures : List EntryFuture) :
    (assemble schedule path futures).toOption.map forgetOrder =
      (tryCollect (schedule.files path (futures.filterMap EntryFuture.file?).length)
          (futures.filterMap EntryFuture.file?)).toOption.bind fun F =>
        (tryCollect (schedule.directories path (futures.filterMap EntryFuture.directory?).length)
            (futures.filterMap EntryFuture.directory?)).toOption.bind fun D =>
          (tryCollect (schedule.symlinks path (futures.filterMap EntryFuture.symlink?).length)
              (futures.filterMap EntryFuture.symlink?)).toOption.bind fun S =>
            some (gather F (D.map forgetOrder) S) := by
  simp only [assemble, toOption_bind, Option.map_bind, Function.comp_def, gather_forgetOrder]
  rfl

theorem filterMap_result_file? (futures : List EntryFuture) :
    (futures.map EntryFuture.result).filterMap EntryResult.file? =
      (futures.filterMap EntryFuture.file?).map fun r => r.toOption.map id :=
  filterMap_map_eq_map_filterMap
    (fun f => by cases f <;> simp [EntryFuture.result, EntryResult.file?, EntryFuture.file?]) futures

theorem filterMap_result_directory? (futures : List EntryFuture) :
    (futures.map EntryFuture.result).filterMap EntryResult.directory? =
      (futures.filterMap EntryFuture.directory?).map fun r => r.toOption.map forgetOrder :=
  filterMap_map_eq_map_filterMap (fun f => by cases f <;> rfl) futures

theorem filterMap_result_symlink? (futures : List EntryFuture) :
    (futures.map EntryFuture.result).filterMap EntryResult.symlink? =
      (futures.filterMap EntryFuture.symlink?).map fun r => r.toOption.map id :=
  filterMap_map_eq_map_filterMap
    (fun f => by cases f <;> simp [EntryFuture.result, EntryResult.symlink?, EntryFuture.symlink?]) futures

theorem name?_of_file? (r : EntryResult) (node : FileNode) (h : r.file? = some (some node)) :
    r.name? = some node.name := by
  cases r <;> cases h
  rfl

theorem name?_of_directory? (r : EntryResult) (entry : DirectoryNode × Multiset ProtoDirectory)
    (h : r.directory? = some (some entry)) : r.name? = some entry.1.name := by
  cases r <;> cases h
  rfl

theorem name?_of_symlink? (r : EntryResult) (node : SymlinkNode) (h : r.symlink? = some (some node)) :
    r.name? = some node.name := by
  cases r <;> cases h
  rfl

theorem assemble_refines {schedule : Schedule} {path : List String} {futures futures' : List EntryFuture}
    (hs : schedule.Valid) (hperm : futures'.Perm futures)
    (hnames : ((futures.map EntryFuture.result).filterMap EntryResult.name?).Nodup) :
    (assemble schedule path futures').toOption.map forgetOrder = assembleSpec (futures.map EntryFuture.result) := by
  have hF := tryCollect_rel (hs path _).2.1 (hperm.filterMap EntryFuture.file?) id
  have hD := tryCollect_rel (hs path _).2.2.1 (hperm.filterMap EntryFuture.directory?) forgetOrder
  have hS := tryCollect_rel (hs path _).2.2.2 (hperm.filterMap EntryFuture.symlink?) id
  rw [← filterMap_result_file?] at hF
  rw [← filterMap_result_directory?] at hD
  rw [← filterMap_result_symlink?] at hS
  rw [assemble_toOption]
  refine rel_bind_eq hF fun F F' hFF hF' => rel_bind_eq hD fun D D' hDD hD' =>
    rel_bind_eq hS fun S S' hSS hS' => ?_
  rw [List.map_id] at hFF hSS
  refine congrArg some (gather_perm hFF hDD hSS ?_ ?_ ?_)
  · exact hnames.sublist (map_mapM_filterMap_sublist name?_of_file? hF')
  · rw [List.map_map]
    exact hnames.sublist (map_mapM_filterMap_sublist name?_of_directory? hD')
  · exact hnames.sublist (map_mapM_filterMap_sublist name?_of_symlink? hS')

end Gather

/-! ## Names -/

section Names

variable {digestOf : ProtoDirectory → DigestInfo} {fullWorkDirectory fullDirPath name : String}

theorem fileName_entryPath (h : Path.SimpleName name) :
    StdPath.fileName (entryPath fullDirPath name) = some name.toList :=
  StdPath.fileName_join_join fullDirPath h

theorem fileNode_entryPath (h : Path.SimpleName name) (digest : DigestInfo) (isExecutable : Bool) :
    fileNode (entryPath fullDirPath name) digest isExecutable = .ok ⟨name, some digest, isExecutable⟩ := by
  rw [fileNode, fileName_entryPath h]
  simp only [String.ofList_toList]

theorem uploadSymlink_nameOrPath {fullPath target : String} {info : SymlinkInfo} {n : List Char}
    (hname : StdPath.fileName fullPath = some n) (h : uploadSymlink fullPath fullWorkDirectory target = .ok info) :
    info.nameOrPath = .name (String.ofList n) := by
  rw [uploadSymlink, hname] at h
  cases ht : symlinkTarget fullWorkDirectory target <;> rw [ht] at h <;> cases h
  rfl

theorem filterMap_name?_cons_sublist {r : EntryResult} {e : Entry} {rs : List EntryResult} {es : List Entry}
    (hr : ∀ n, r.name? = some n → n = e.name) (h : (rs.filterMap EntryResult.name?).Sublist (es.map Entry.name)) :
    ((r :: rs).filterMap EntryResult.name?).Sublist ((e :: es).map Entry.name) := by
  rw [List.filterMap_cons, List.map_cons]
  cases hn : r.name? with
  | none => exact h.cons _
  | some n =>
    rw [hr n hn]
    exact h.cons_cons _

theorem entryResults_names : ∀ {entries : List Entry}, entriesWellNamed entries = true →
    ((entryResults digestOf fullWorkDirectory fullDirPath entries).filterMap EntryResult.name?).Sublist
      (entries.map Entry.name)
  | [], _ => List.nil_sublist _
  | .file name digest isExecutable :: entries, h => by
    simp only [entriesWellNamed, Bool.and_eq_true, decide_eq_true_eq] at h
    rw [entryResults]
    refine filterMap_name?_cons_sublist (fun n hn => ?_) (entryResults_names h.2)
    rw [fileNode_entryPath h.1] at hn
    exact (Option.some.inj hn).symm
  | .directory name contents :: entries, h => by
    simp only [entriesWellNamed, Bool.and_eq_true, decide_eq_true_eq] at h
    rw [entryResults]
    refine filterMap_name?_cons_sublist (fun n hn => ?_) (entryResults_names h.2)
    rw [EntryResult.name?, fileName_entryPath h.1.1] at hn
    obtain ⟨⟨node, _⟩, hbind, rfl⟩ := Option.map_eq_some_iff.mp hn
    obtain ⟨⟨dir, allDirs⟩, -, hnode⟩ := Option.bind_eq_some_iff.mp hbind
    simp only [Option.map_some, Option.some.injEq, Prod.mk.injEq] at hnode
    rw [← hnode.1, String.ofList_toList]
    rfl
  | .symlink name target :: entries, h => by
    simp only [entriesWellNamed, Bool.and_eq_true, decide_eq_true_eq] at h
    rw [entryResults]
    refine filterMap_name?_cons_sublist (fun n hn => ?_) (entryResults_names h.2)
    rw [EntryResult.name?] at hn
    obtain ⟨node, hnode, rfl⟩ := Option.map_eq_some_iff.mp hn
    obtain ⟨info, hinfo, rfl⟩ := Option.map_eq_some_iff.mp hnode
    rw [SymlinkInfo.toNode, uploadSymlink_nameOrPath (fileName_entryPath h.1) (eq_ok_of_toOption hinfo),
      String.ofList_toList]
    rfl
  | .other name :: entries, h => by
    simp only [entriesWellNamed, Bool.and_eq_true, decide_eq_true_eq] at h
    rw [entryResults]
    exact filterMap_name?_cons_sublist (fun n hn => by cases hn) (entryResults_names h.2)

end Names

/-! ## Refinement -/

section Refinement

variable {schedule : Schedule} (digestOf : ProtoDirectory → DigestInfo) (fullWorkDirectory : String)

mutual
theorem uploadDirectory_refines (hs : schedule.Valid) (path : List String) (fullDirPath : String) :
    ∀ d : Dir, d.wellNamed = true →
      (uploadDirectory schedule digestOf fullWorkDirectory path fullDirPath d).toOption.map forgetOrder =
        uploadSpec digestOf fullWorkDirectory fullDirPath d
  | .mk entries, h => by
    simp only [Dir.wellNamed, Bool.and_eq_true, decide_eq_true_eq] at h
    have hresults := entryFutures_refines hs path fullDirPath entries h.2
    rw [uploadDirectory, uploadSpec, ← hresults]
    refine assemble_refines hs (perm_filterMap_getElem? (hs path _).1) ?_
    rw [hresults]
    exact (entryResults_names h.2).nodup h.1

theorem entryFutures_refines (hs : schedule.Valid) (path : List String) (fullDirPath : String) :
    ∀ entries : List Entry, entriesWellNamed entries = true →
      (entryFutures schedule digestOf fullWorkDirectory path fullDirPath entries).map EntryFuture.result =
        entryResults digestOf fullWorkDirectory fullDirPath entries
  | [], _ => rfl
  | .file name digest isExecutable :: entries, h => by
    simp only [entriesWellNamed, Bool.and_eq_true] at h
    rw [entryFutures, entryResults, List.map_cons, entryFutures_refines hs path fullDirPath entries h.2]
    rfl
  | .directory name contents :: entries, h => by
    simp only [entriesWellNamed, Bool.and_eq_true, decide_eq_true_eq] at h
    rw [entryFutures, entryResults, List.map_cons, entryFutures_refines hs path fullDirPath entries h.2,
      ← uploadDirectory_refines hs (path ++ [name]) (entryPath fullDirPath name) contents h.1.2,
      fileName_entryPath h.1.1]
    cases uploadDirectory schedule digestOf fullWorkDirectory (path ++ [name]) (entryPath fullDirPath name) contents <;>
      rfl
  | .symlink name target :: entries, h => by
    simp only [entriesWellNamed, Bool.and_eq_true] at h
    rw [entryFutures, entryResults, List.map_cons, entryFutures_refines hs path fullDirPath entries h.2,
      EntryFuture.result, toOption_map]
  | .other name :: entries, h => by
    simp only [entriesWellNamed, Bool.and_eq_true] at h
    rw [entryFutures, entryResults, List.map_cons, entryFutures_refines hs path fullDirPath entries h.2]
    rfl
end

end Refinement

section Tree

variable {schedule : Schedule} (digestOf : ProtoDirectory → DigestInfo)

theorem uploadTree_refines (hs : schedule.Valid) (workDirectory fullPath : String) {d : Dir}
    (hd : d.wellNamed = true) :
    (uploadTree schedule digestOf workDirectory fullPath d).toOption.map
        (fun tree => (tree.root, (tree.children : Multiset ProtoDirectory))) =
      uploadSpec digestOf workDirectory fullPath d := by
  rw [uploadTree, toOption_map, Option.map_map, ← uploadDirectory_refines digestOf workDirectory hs [] fullPath d hd]
  rfl

-- Whatever order `read_dir` lists the entries in and the futures finish in, the upload of a tree
-- succeeds or fails alike, with the same root and the same children, though not in the same order.
theorem upload_tree_agrees_up_to_children_order {s₁ s₂ : Schedule} (hs₁ : s₁.Valid) (hs₂ : s₂.Valid)
    (workDirectory fullPath : String) {d : Dir} (hd : d.wellNamed = true) :
    Option.Rel (fun t₁ t₂ : ProtoTree => t₁.root = t₂.root ∧ t₁.children.Perm t₂.children)
      (uploadTree s₁ digestOf workDirectory fullPath d).toOption
      (uploadTree s₂ digestOf workDirectory fullPath d).toOption := by
  have hspec := (uploadTree_refines digestOf hs₁ workDirectory fullPath hd).trans
    (uploadTree_refines digestOf hs₂ workDirectory fullPath hd).symm
  refine rel_mono (rel_of_map_eq hspec) fun t₁ t₂ ht => ?_
  obtain ⟨hroot, hchildren⟩ := Prod.mk.inj ht
  exact ⟨hroot, Multiset.coe_eq_coe.mp hchildren⟩

end Tree

-- `read_dir` listing the entries and the futures finishing in the order they were pushed.
def Schedule.inOrder : Schedule :=
  ⟨fun _ count => List.range count, fun _ count => List.range count, fun _ count => List.range count,
    fun _ count => List.range count⟩

theorem Schedule.inOrder_valid : Schedule.inOrder.Valid :=
  fun _ _ => ⟨.refl _, .refl _, .refl _, .refl _⟩

-- `read_dir` listing the entries in the reverse order, and the futures finishing as pushed.
def Schedule.reversedListing : Schedule :=
  ⟨fun _ count => (List.range count).reverse, fun _ count => List.range count, fun _ count => List.range count,
    fun _ count => List.range count⟩

-- Two subdirectories listed the other way round: the `Tree`s have the same root, and their
-- children in another order.
theorem upload_tree_children_of_reversed_listing :
    Schedule.inOrder.Valid ∧ Schedule.reversedListing.Valid ∧
      (Dir.mk [.directory "a" (.mk []), .directory "b" (.mk [.file "f" ⟨1, 1⟩ false])]).wellNamed = true ∧
      Option.Rel (fun t₁ t₂ : ProtoTree => t₁.root = t₂.root ∧ t₁.children.Perm t₂.children)
        (uploadTree Schedule.inOrder (fun _ => ⟨0, 0⟩) "/work" "/work/out"
          (.mk [.directory "a" (.mk []), .directory "b" (.mk [.file "f" ⟨1, 1⟩ false])])).toOption
        (uploadTree Schedule.reversedListing (fun _ => ⟨0, 0⟩) "/work" "/work/out"
          (.mk [.directory "a" (.mk []), .directory "b" (.mk [.file "f" ⟨1, 1⟩ false])])).toOption ∧
      (uploadTree Schedule.inOrder (fun _ => ⟨0, 0⟩) "/work" "/work/out"
          (.mk [.directory "a" (.mk []), .directory "b" (.mk [.file "f" ⟨1, 1⟩ false])])).toOption.map
          (·.children) ≠
        (uploadTree Schedule.reversedListing (fun _ => ⟨0, 0⟩) "/work" "/work/out"
          (.mk [.directory "a" (.mk []), .directory "b" (.mk [.file "f" ⟨1, 1⟩ false])])).toOption.map
          (·.children) := by
  have hin : Schedule.inOrder.Valid := fun _ _ => ⟨.refl _, .refl _, .refl _, .refl _⟩
  have hrev : Schedule.reversedListing.Valid := fun _ _ => ⟨List.reverse_perm _, .refl _, .refl _, .refl _⟩
  have hd : (Dir.mk [.directory "a" (.mk []), .directory "b" (.mk [.file "f" ⟨1, 1⟩ false])]).wellNamed = true := by
    decide +kernel
  exact ⟨hin, hrev, hd, upload_tree_agrees_up_to_children_order _ hin hrev "/work" "/work/out" hd, by decide +kernel⟩

/-! ## Failures -/

section Failures

variable (digestOf : ProtoDirectory → DigestInfo) (fullWorkDirectory : String)

theorem assembleSpec_of_failed {results : List EntryResult} (h : ∃ r ∈ results, r.failed = true) :
    assembleSpec results = none := by
  obtain ⟨r, hr, hfailed⟩ := h
  rw [assembleSpec]
  cases r
  case file node =>
    cases node <;> cases hfailed
    rw [mapM_id_eq_none (List.mem_filterMap.mpr ⟨_, hr, rfl⟩)]
    rfl
  case directory result =>
    cases result <;> cases hfailed
    have hnone : none ∈ results.filterMap EntryResult.directory? := List.mem_filterMap.mpr ⟨_, hr, rfl⟩
    cases (results.filterMap EntryResult.file?).mapM id
    case none => rfl
    case some =>
      rw [mapM_id_eq_none hnone]
      rfl
  case symlink node =>
    cases node <;> cases hfailed
    have hnone : none ∈ results.filterMap EntryResult.symlink? := List.mem_filterMap.mpr ⟨_, hr, rfl⟩
    cases (results.filterMap EntryResult.file?).mapM id
    case none => rfl
    case some =>
      cases (results.filterMap EntryResult.directory?).mapM id
      case none => rfl
      case some =>
        rw [mapM_id_eq_none hnone]
        rfl
  case skipped => cases hfailed

mutual
theorem uploadSpec_of_failed_symlink (fullDirPath : String) :
    ∀ (d : Dir) (path target : String), (path, target) ∈ d.symlinks fullDirPath →
      (uploadSymlink path fullWorkDirectory target).toOption = none →
      uploadSpec digestOf fullWorkDirectory fullDirPath d = none
  | .mk entries, path, target, hmem, hfailed =>
    assembleSpec_of_failed (entryResults_of_failed_symlink fullDirPath entries path target hmem hfailed)

theorem entryResults_of_failed_symlink (fullDirPath : String) :
    ∀ (entries : List Entry) (path target : String), (path, target) ∈ entriesSymlinks fullDirPath entries →
      (uploadSymlink path fullWorkDirectory target).toOption = none →
      ∃ r ∈ entryResults digestOf fullWorkDirectory fullDirPath entries, r.failed = true
  | [], _, _, hmem, _ => by cases hmem
  | .file _ _ _ :: entries, path, target, hmem, hfailed => by
    obtain ⟨r, hr, hr'⟩ := entryResults_of_failed_symlink fullDirPath entries path target hmem hfailed
    exact ⟨r, List.mem_cons_of_mem _ hr, hr'⟩
  | .directory name contents :: entries, path, target, hmem, hfailed => by
    rcases List.mem_append.mp hmem with hsub | hrest
    case inl =>
      have hnone := uploadSpec_of_failed_symlink (entryPath fullDirPath name) contents path target hsub hfailed
      refine ⟨_, List.mem_cons_self, ?_⟩
      rw [hnone]
      rfl
    case inr =>
      obtain ⟨r, hr, hr'⟩ := entryResults_of_failed_symlink fullDirPath entries path target hrest hfailed
      exact ⟨r, List.mem_cons_of_mem _ hr, hr'⟩
  | .symlink name target' :: entries, path, target, hmem, hfailed => by
    rcases List.mem_cons.mp hmem with hhead | hrest
    case inl =>
      obtain ⟨rfl, rfl⟩ := Prod.mk.inj hhead
      refine ⟨_, List.mem_cons_self, ?_⟩
      rw [EntryResult.failed, hfailed]
      rfl
    case inr =>
      obtain ⟨r, hr, hr'⟩ := entryResults_of_failed_symlink fullDirPath entries path target hrest hfailed
      exact ⟨r, List.mem_cons_of_mem _ hr, hr'⟩
  | .other _ :: entries, path, target, hmem, hfailed => by
    obtain ⟨r, hr, hr'⟩ := entryResults_of_failed_symlink fullDirPath entries path target hmem hfailed
    exact ⟨r, List.mem_cons_of_mem _ hr, hr'⟩
end

end Failures

/-! ## Symlink targets -/

section Targets

variable {fullWorkDirectoryPath fullPath target : String}

theorem symlinkTarget_of_outside (h : StdPath.startsWith target fullWorkDirectoryPath = false) :
    symlinkTarget fullWorkDirectoryPath target = .ok target := by
  rw [symlinkTarget, if_neg (by rw [h]; decide)]
  rfl

theorem symlinkTarget_of_inside_absolute (habs : fullWorkDirectoryPath.toList.head? = some '/')
    (hnames : StdPath.names fullWorkDirectoryPath ≠ [])
    (h : StdPath.startsWith target fullWorkDirectoryPath = true) :
    symlinkTarget fullWorkDirectoryPath target = .error (relativePathErr .nonRelative) := by
  obtain ⟨htarget, rest, hrest⟩ := StdPath.startsWith_absolute habs h
  have hne : StdPath.names target ≠ [] := by
    rw [hrest]
    exact fun hnil => hnames (List.append_eq_nil_iff.mp hnil).1
  rw [symlinkTarget, if_pos h, RelativePath.fromPath_of_absolute htarget hne]
  rfl

theorem uploadSymlink_of_symlinkTarget_error {e : Error} (h : symlinkTarget fullWorkDirectoryPath target = .error e) :
    uploadSymlink fullPath fullWorkDirectoryPath target = .error e := by
  rw [uploadSymlink, h]
  rfl

theorem uploadSymlink_of_fileName {n : List Char} (hname : StdPath.fileName fullPath = some n) :
    uploadSymlink fullPath fullWorkDirectoryPath target =
      (symlinkTarget fullWorkDirectoryPath target).map fun t => ⟨.name (String.ofList n), t⟩ := by
  rw [uploadSymlink, hname]
  cases symlinkTarget fullWorkDirectoryPath target <;> rfl

end Targets

-- Under an absolute work directory, a symlink whose target lies inside it fails to upload, and so
-- does every output directory that holds one at any depth; other targets are recorded as they are.
theorem in_tree_symlink_target_fails_upload {fullWorkDirectoryPath : String}
    (habs : fullWorkDirectoryPath.toList.head? = some '/') (hnames : StdPath.names fullWorkDirectoryPath ≠ []) :
    (∀ fullPath target, StdPath.startsWith target fullWorkDirectoryPath = true →
      uploadSymlink fullPath fullWorkDirectoryPath target = .error (relativePathErr .nonRelative)) ∧
    (∀ fullPath target name, StdPath.startsWith target fullWorkDirectoryPath = false →
      StdPath.fileName fullPath = some name →
      uploadSymlink fullPath fullWorkDirectoryPath target = .ok ⟨.name (String.ofList name), target⟩) ∧
    (∀ (schedule : Schedule) (digestOf : ProtoDirectory → DigestInfo) (fullPath : String) (d : Dir)
      (path target : String), schedule.Valid → d.wellNamed = true → (path, target) ∈ d.symlinks fullPath →
      StdPath.startsWith target fullWorkDirectoryPath = true →
      (uploadTree schedule digestOf fullWorkDirectoryPath fullPath d).toOption = none) := by
  have hinside : ∀ fullPath target, StdPath.startsWith target fullWorkDirectoryPath = true →
      uploadSymlink fullPath fullWorkDirectoryPath target = .error (relativePathErr .nonRelative) :=
    fun _ _ h => uploadSymlink_of_symlinkTarget_error (symlinkTarget_of_inside_absolute habs hnames h)
  refine ⟨hinside, fun fullPath target name h hname => ?_, fun schedule digestOf fullPath d path target hs hd hmem h => ?_⟩
  · rw [uploadSymlink_of_fileName hname, symlinkTarget_of_outside h]
    rfl
  · -- the symlink's failure reaches the top of the spec, which the upload refines
    have hfailed : (uploadSymlink path fullWorkDirectoryPath target).toOption = none := by
      rw [hinside path target h]
      rfl
    have htree := uploadTree_refines digestOf hs fullWorkDirectoryPath fullPath hd
    rw [uploadSpec_of_failed_symlink digestOf fullWorkDirectoryPath fullPath d path target hmem hfailed] at htree
    exact Option.map_eq_none_iff.mp htree

-- Work directory `/work`: a symlink `/work/out/sub/link` to `/work/out/file` fails the upload of
-- `/work/out`. Under a relative work directory `work`, the target `work/a/file` is recorded as
-- `a/file`, relative to the work directory.
theorem in_tree_symlink_target_fails_upload_of_work :
    uploadSymlink "/work/out/sub/link" "/work" "/work/out/file" = .error (relativePathErr .nonRelative) ∧
      (uploadTree Schedule.inOrder (fun _ => ⟨0, 0⟩) "/work" "/work/out"
        (.mk [.directory "sub" (.mk [.symlink "link" "/work/out/file"])])).toOption = none ∧
      symlinkTarget "work" "work/a/file" = .ok "a/file" := by
  have habs : "/work".toList.head? = some '/' := by decide
  have hnames : StdPath.names "/work" ≠ [] := by decide +kernel
  have hfails := in_tree_symlink_target_fails_upload habs hnames
  have hin : StdPath.startsWith "/work/out/file" "/work" = true := by decide +kernel
  refine ⟨hfails.1 _ _ hin, hfails.2.2 Schedule.inOrder _ "/work/out" _ "/work/out/sub/link" "/work/out/file"
    (fun _ _ => ⟨.refl _, .refl _, .refl _, .refl _⟩) (by decide +kernel) (by decide +kernel) hin, by decide +kernel⟩

end NativeLink.RunningActionsManager
