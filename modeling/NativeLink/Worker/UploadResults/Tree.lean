import NativeLink.Worker.UploadResults

-- What a client reading the `Tree` of an output directory relies on, in every schedule: one
-- `Directory` message for each directory of the output directory, its own last; every message
-- canonical; every subdirectory a message names, by digest, among the messages; and an upload that
-- fails when a symlink below fails. Each is proved of `uploadSpec`, by induction over the
-- tree, and carried to `upload_directory` by `uploadDirectory_refines`.

namespace NativeLink.RunningActionsManager

open Collect

/-! ## The tree and its messages -/

mutual
-- The directories of a tree, itself included.
def Dir.dirCount : Dir → Nat
  | .mk entries => entriesDirCount entries + 1

def entriesDirCount : List Entry → Nat
  | [] => 0
  | .file _ _ _ :: entries => entriesDirCount entries
  | .directory _ contents :: entries => contents.dirCount + entriesDirCount entries
  | .symlink _ _ :: entries => entriesDirCount entries
  | .other _ :: entries => entriesDirCount entries
end

-- The names of a directory's nodes, of all three kinds.
def ProtoDirectory.names (directory : ProtoDirectory) : List String :=
  directory.files.map (·.name) ++ directory.directories.map (·.name) ++ directory.symlinks.map (·.name)

-- The form REAPI asks of a `Directory`: the nodes of each kind in strictly increasing order of
-- name, and no name twice among all of them.
def ProtoDirectory.Canonical (directory : ProtoDirectory) : Prop :=
  (directory.files.map (·.name)).Pairwise (· < ·) ∧ (directory.directories.map (·.name)).Pairwise (· < ·) ∧
    (directory.symlinks.map (·.name)).Pairwise (· < ·) ∧ directory.names.Nodup

-- What a client relies on of the messages of a `Tree`: the root among them, each canonical, and
-- every subdirectory a message names one of them.
structure TreeWf (digestOf : ProtoDirectory → DigestInfo) (root : ProtoDirectory)
    (children : Multiset ProtoDirectory) : Prop where
  root_mem : root ∈ children
  canonical : ∀ m ∈ children, m.Canonical
  closed : ∀ m ∈ children, ∀ node ∈ m.directories, ∃ m' ∈ children, node.digest = some (digestOf m')

/-! ## One directory -/

section Gather

theorem assembleSpec_eq_some {results : List EntryResult} {upload : ProtoDirectory × Multiset ProtoDirectory}
    (h : assembleSpec results = some upload) :
    ∃ F D S, (results.filterMap EntryResult.file?).mapM id = some F ∧
      (results.filterMap EntryResult.directory?).mapM id = some D ∧
      (results.filterMap EntryResult.symlink?).mapM id = some S ∧ upload = gather F D S := by
  rw [assembleSpec] at h
  cases hF : (results.filterMap EntryResult.file?).mapM id <;>
    cases hD : (results.filterMap EntryResult.directory?).mapM id <;>
    cases hS : (results.filterMap EntryResult.symlink?).mapM id <;>
    simp only [hF, hD, hS] at h <;> try cases h
  exact ⟨_, _, _, rfl, rfl, rfl, rfl⟩

theorem name?_eq_or (r : EntryResult) :
    r.name? = (r.file?.bind (Option.map (·.name))).or
      ((r.directory?.bind (Option.map (·.1.name))).or (r.symlink?.bind (Option.map (·.name)))) := by
  cases r
  case file node => cases node <;> rfl
  case directory result => cases result <;> rfl
  case symlink node => cases node <;> rfl
  case skipped => rfl

theorem filterMap_name?_perm {results : List EntryResult} {F : List FileNode}
    {D : List (DirectoryNode × Multiset ProtoDirectory)} {S : List SymlinkNode}
    (hF : (results.filterMap EntryResult.file?).mapM id = some F)
    (hD : (results.filterMap EntryResult.directory?).mapM id = some D)
    (hS : (results.filterMap EntryResult.symlink?).mapM id = some S) :
    (results.filterMap EntryResult.name?).Perm (F.map (·.name) ++ (D.map (·.1)).map (·.name) ++ S.map (·.name)) := by
  rw [List.map_map, map_of_mapM_filterMap hF, map_of_mapM_filterMap hD, map_of_mapM_filterMap hS,
    List.append_assoc]
  have hkinds : results.filterMap EntryResult.name? = results.filterMap fun r =>
      (r.file?.bind (Option.map (·.name))).or
        ((r.directory?.bind (Option.map (·.1.name))).or (r.symlink?.bind (Option.map (·.name)))) :=
    congrArg (List.filterMap · results) (funext name?_eq_or)
  rw [hkinds]
  refine (filterMap_or_perm (fun r hr => ?_) results).trans (List.Perm.append_left _
    (filterMap_or_perm (fun r hr => ?_) results))
  · cases r <;> first | rfl | cases hr
  · cases r <;> first | rfl | cases hr

theorem gather_canonical {F : List FileNode} {D : List (DirectoryNode × Multiset ProtoDirectory)}
    {S : List SymlinkNode} (hnames : (F.map (·.name) ++ (D.map (·.1)).map (·.name) ++ S.map (·.name)).Nodup) :
    (gather F D S).1.Canonical := by
  have hF : (F.map (·.name)).Nodup := hnames.sublist ((List.sublist_append_left _ _).trans (List.sublist_append_left _ _))
  have hD : ((D.map (·.1)).map (·.name)).Nodup :=
    hnames.sublist ((List.sublist_append_right _ _).trans (List.sublist_append_left _ _))
  have hS : (S.map (·.name)).Nodup := hnames.sublist (List.sublist_append_right _ _)
  refine ⟨List.pairwise_map.mpr (pairwise_lt_sortBy hF), List.pairwise_map.mpr (pairwise_lt_sortBy hD),
    List.pairwise_map.mpr (pairwise_lt_sortBy hS), ?_⟩
  refine (List.Perm.nodup_iff ?_).mpr hnames
  exact (((perm_sortBy F).map _).append ((perm_sortBy _).map _)).append ((perm_sortBy S).map _)

end Gather

/-! ## The spec's messages -/

section Spec

variable (digestOf : ProtoDirectory → DigestInfo) (fullWorkDirectory : String)

theorem mem_gather_of_sub {F : List FileNode} {D : List (DirectoryNode × Multiset ProtoDirectory)}
    {S : List SymlinkNode} {p : DirectoryNode × Multiset ProtoDirectory} {m : ProtoDirectory} (hp : p ∈ D)
    (hm : m ∈ p.2) : m ∈ (gather F D S).2 :=
  Multiset.mem_add.mpr (.inl (Multiset.mem_of_le (le_list_sum (List.mem_map_of_mem hp)) hm))

theorem gather_wf {F : List FileNode} {D : List (DirectoryNode × Multiset ProtoDirectory)} {S : List SymlinkNode}
    (hsub : ∀ p ∈ D, ∃ dir, p.1.digest = some (digestOf dir) ∧ TreeWf digestOf dir p.2)
    (hcanonical : (gather F D S).1.Canonical) : TreeWf digestOf (gather F D S).1 (gather F D S).2 where
  root_mem := Multiset.mem_add.mpr (.inr (Multiset.mem_singleton_self _))
  canonical m hm := by
    rcases Multiset.mem_add.mp hm with hsum | hroot
    case inl =>
      obtain ⟨_, hs, hms⟩ := mem_list_sum.mp hsum
      obtain ⟨p, hp, rfl⟩ := List.mem_map.mp hs
      obtain ⟨_, -, hwf⟩ := hsub p hp
      exact hwf.canonical m hms
    case inr =>
      rw [Multiset.mem_singleton.mp hroot]
      exact hcanonical
  closed m hm node hnode := by
    rcases Multiset.mem_add.mp hm with hsum | hroot
    case inl =>
      obtain ⟨_, hs, hms⟩ := mem_list_sum.mp hsum
      obtain ⟨p, hp, rfl⟩ := List.mem_map.mp hs
      obtain ⟨_, -, hwf⟩ := hsub p hp
      obtain ⟨m', hm', hdigest⟩ := hwf.closed m hms node hnode
      exact ⟨m', mem_gather_of_sub hp hm', hdigest⟩
    case inr =>
      rw [Multiset.mem_singleton.mp hroot] at hnode
      obtain ⟨p, hp, rfl⟩ := List.mem_map.mp ((perm_sortBy _).mem_iff.mp hnode)
      obtain ⟨dir, hdigest, hwf⟩ := hsub p hp
      exact ⟨dir, mem_gather_of_sub hp hwf.root_mem, hdigest⟩

theorem card_gather (F : List FileNode) (D : List (DirectoryNode × Multiset ProtoDirectory)) (S : List SymlinkNode) :
    Multiset.card (gather F D S).2 = (D.map fun p => Multiset.card p.2).sum + 1 := by
  rw [gather, Multiset.card_add, card_list_sum, Multiset.card_singleton, List.map_map]
  rfl

mutual
theorem uploadSpec_wf (fullDirPath : String) :
    ∀ (d : Dir), d.wellNamed = true → ∀ {upload : ProtoDirectory × Multiset ProtoDirectory},
      uploadSpec digestOf fullWorkDirectory fullDirPath d = some upload →
      TreeWf digestOf upload.1 upload.2 ∧ Multiset.card upload.2 = d.dirCount
  | .mk entries, h, upload, hspec => by
    simp only [Dir.wellNamed, Bool.and_eq_true, decide_eq_true_eq] at h
    rw [uploadSpec] at hspec
    obtain ⟨F, D, S, hF, hD, hS, rfl⟩ := assembleSpec_eq_some hspec
    obtain ⟨hsub, hcount⟩ := entryResults_wf fullDirPath entries h.2 hD
    have hnames := (filterMap_name?_perm hF hD hS).nodup_iff.mp ((entryResults_names h.2).nodup h.1)
    refine ⟨gather_wf digestOf hsub (gather_canonical hnames), ?_⟩
    rw [card_gather, hcount, Dir.dirCount]

theorem entryResults_wf (fullDirPath : String) :
    ∀ (entries : List Entry), entriesWellNamed entries = true →
      ∀ {D : List (DirectoryNode × Multiset ProtoDirectory)},
      ((entryResults digestOf fullWorkDirectory fullDirPath entries).filterMap EntryResult.directory?).mapM id =
        some D →
      (∀ p ∈ D, ∃ dir, p.1.digest = some (digestOf dir) ∧ TreeWf digestOf dir p.2) ∧
        (D.map fun p => Multiset.card p.2).sum = entriesDirCount entries
  | [], _, D, hD => by
    cases hD
    exact ⟨nofun, rfl⟩
  | .file _ _ _ :: entries, h, D, hD => by
    simp only [entriesWellNamed, Bool.and_eq_true] at h
    rw [entryResults, List.filterMap_cons_none (f := EntryResult.directory?) rfl] at hD
    exact entryResults_wf fullDirPath entries h.2 hD
  | .directory name contents :: entries, h, D, hD => by
    simp only [entriesWellNamed, Bool.and_eq_true, decide_eq_true_eq] at h
    rw [entryResults, List.filterMap_cons_some (f := EntryResult.directory?) rfl] at hD
    obtain ⟨p, D', hp, hD', rfl⟩ := mapM_id_cons_eq_some hD
    obtain ⟨⟨dir, allDirs⟩, hsub, hname⟩ := Option.bind_eq_some_iff.mp hp
    rw [fileName_entryPath h.1.1] at hname
    cases hname
    obtain ⟨hwf, hcard⟩ := uploadSpec_wf (entryPath fullDirPath name) contents h.1.2 hsub
    obtain ⟨hrest, hcount⟩ := entryResults_wf fullDirPath entries h.2 hD'
    refine ⟨fun q hq => ?_, ?_⟩
    · rcases List.mem_cons.mp hq with rfl | hq
      case inl => exact ⟨dir, rfl, hwf⟩
      case inr => exact hrest q hq
    · rw [List.map_cons, List.sum_cons, hcount, entriesDirCount]
      exact congrArg (· + _) hcard
  | .symlink _ _ :: entries, h, D, hD => by
    simp only [entriesWellNamed, Bool.and_eq_true] at h
    rw [entryResults, List.filterMap_cons_none (f := EntryResult.directory?) rfl] at hD
    exact entryResults_wf fullDirPath entries h.2 hD
  | .other _ :: entries, h, D, hD => by
    simp only [entriesWellNamed, Bool.and_eq_true] at h
    rw [entryResults, List.filterMap_cons_none (f := EntryResult.directory?) rfl] at hD
    exact entryResults_wf fullDirPath entries h.2 hD
end

end Spec

/-! ## The uploaded `Tree` -/

deriving instance DecidableEq for ProtoTree

section Upload

variable {schedule : Schedule} (digestOf : ProtoDirectory → DigestInfo)

theorem assemble_getLast {path : List String} {futures : List EntryFuture} {root : ProtoDirectory}
    {children : List ProtoDirectory} (h : assemble schedule path futures = .ok (root, children)) :
    children.getLast? = some root := by
  obtain ⟨_, -, h⟩ := bind_eq_ok h
  obtain ⟨_, -, h⟩ := bind_eq_ok h
  obtain ⟨_, -, h⟩ := bind_eq_ok h
  cases h
  exact List.getLast?_concat

theorem uploadTree_eq_ok {workDirectory fullPath : String} {d : Dir} {tree : ProtoTree}
    (h : uploadTree schedule digestOf workDirectory fullPath d = .ok tree) :
    uploadDirectory schedule digestOf workDirectory [] fullPath d = .ok (tree.root, tree.children) := by
  rw [uploadTree] at h
  cases hupload : uploadDirectory schedule digestOf workDirectory [] fullPath d <;> rw [hupload] at h <;>
    cases h
  rfl

theorem uploadTree_wf (hs : schedule.Valid) {workDirectory fullPath : String} {d : Dir}
    (hd : d.wellNamed = true) {tree : ProtoTree} (htree : uploadTree schedule digestOf workDirectory fullPath d = .ok tree) :
    TreeWf digestOf tree.root tree.children ∧ tree.children.length = d.dirCount := by
  have hspec := uploadTree_refines digestOf hs workDirectory fullPath hd
  rw [htree] at hspec
  obtain ⟨hwf, hcard⟩ := uploadSpec_wf digestOf workDirectory fullPath d hd hspec.symm
  exact ⟨hwf, hcard⟩

-- The `Tree` holds one message for each directory of the output directory, its own last.
theorem uploaded_tree_has_one_message_per_directory (hs : schedule.Valid) {workDirectory fullPath : String}
    {d : Dir} (hd : d.wellNamed = true) {tree : ProtoTree}
    (htree : uploadTree schedule digestOf workDirectory fullPath d = .ok tree) :
    tree.children.length = d.dirCount ∧ tree.children.getLast? = some tree.root := by
  refine ⟨(uploadTree_wf digestOf hs hd htree).2, ?_⟩
  have hupload := uploadTree_eq_ok digestOf htree
  cases d
  rw [uploadDirectory] at hupload
  exact assemble_getLast hupload

theorem uploaded_tree_has_one_message_per_directory_of_subdirectory :
    uploadTree Schedule.inOrder (fun _ => ⟨0, 0⟩) "/work" "/work/out" (.mk [.directory "a" (.mk [])]) =
        .ok ⟨⟨[], [⟨"a", some ⟨0, 0⟩⟩], []⟩, [⟨[], [], []⟩, ⟨[], [⟨"a", some ⟨0, 0⟩⟩], []⟩]⟩ ∧
      (Dir.mk [.directory "a" (.mk [])]).dirCount = 2 := by
  have htree : uploadTree Schedule.inOrder (fun _ => ⟨0, 0⟩) "/work" "/work/out" (.mk [.directory "a" (.mk [])]) =
      .ok ⟨⟨[], [⟨"a", some ⟨0, 0⟩⟩], []⟩, [⟨[], [], []⟩, ⟨[], [⟨"a", some ⟨0, 0⟩⟩], []⟩]⟩ := by
    decide +kernel
  exact ⟨htree, (uploaded_tree_has_one_message_per_directory _ Schedule.inOrder_valid (by decide +kernel) htree).1.symm⟩

-- Every message of the `Tree` is canonical: its nodes of each kind sorted by name, no name twice.
theorem uploaded_tree_messages_are_canonical (hs : schedule.Valid) {workDirectory fullPath : String}
    {d : Dir} (hd : d.wellNamed = true) {tree : ProtoTree}
    (htree : uploadTree schedule digestOf workDirectory fullPath d = .ok tree) :
    tree.root.Canonical ∧ ∀ m ∈ tree.children, m.Canonical := by
  have hwf := (uploadTree_wf digestOf hs hd htree).1
  exact ⟨hwf.canonical _ hwf.root_mem, fun m hm => hwf.canonical m (Multiset.mem_coe.mpr hm)⟩

-- Two files listed out of order and a directory: the files come sorted by name.
theorem uploaded_tree_messages_are_canonical_of_three_entries :
    uploadTree Schedule.inOrder (fun _ => ⟨0, 0⟩) "/work" "/work/out"
        (.mk [.file "b" ⟨1, 1⟩ false, .directory "c" (.mk []), .file "a" ⟨2, 2⟩ true]) =
        .ok ⟨⟨[⟨"a", some ⟨2, 2⟩, true⟩, ⟨"b", some ⟨1, 1⟩, false⟩], [⟨"c", some ⟨0, 0⟩⟩], []⟩,
          [⟨[], [], []⟩, ⟨[⟨"a", some ⟨2, 2⟩, true⟩, ⟨"b", some ⟨1, 1⟩, false⟩], [⟨"c", some ⟨0, 0⟩⟩], []⟩]⟩ ∧
      (⟨[⟨"a", some ⟨2, 2⟩, true⟩, ⟨"b", some ⟨1, 1⟩, false⟩], [⟨"c", some ⟨0, 0⟩⟩], []⟩ : ProtoDirectory).Canonical := by
  have htree : uploadTree Schedule.inOrder (fun _ => ⟨0, 0⟩) "/work" "/work/out"
      (.mk [.file "b" ⟨1, 1⟩ false, .directory "c" (.mk []), .file "a" ⟨2, 2⟩ true]) =
      .ok ⟨⟨[⟨"a", some ⟨2, 2⟩, true⟩, ⟨"b", some ⟨1, 1⟩, false⟩], [⟨"c", some ⟨0, 0⟩⟩], []⟩,
        [⟨[], [], []⟩, ⟨[⟨"a", some ⟨2, 2⟩, true⟩, ⟨"b", some ⟨1, 1⟩, false⟩], [⟨"c", some ⟨0, 0⟩⟩], []⟩]⟩ := by
    decide +kernel
  exact ⟨htree, (uploaded_tree_messages_are_canonical _ Schedule.inOrder_valid (by decide +kernel) htree).1⟩

-- Every subdirectory a message of the `Tree` names is, by digest, one of the `Tree`'s messages.
theorem uploaded_tree_is_closed (hs : schedule.Valid) {workDirectory fullPath : String} {d : Dir}
    (hd : d.wellNamed = true) {tree : ProtoTree}
    (htree : uploadTree schedule digestOf workDirectory fullPath d = .ok tree) :
    ∀ m ∈ tree.children, ∀ node ∈ m.directories, ∃ m' ∈ tree.children, node.digest = some (digestOf m') := by
  have hwf := (uploadTree_wf digestOf hs hd htree).1
  intro m hm node hnode
  obtain ⟨m', hm', hdigest⟩ := hwf.closed m (Multiset.mem_coe.mpr hm) node hnode
  exact ⟨m', Multiset.mem_coe.mp hm', hdigest⟩

-- Nested directories `a/b`, each message given the number of its subdirectories as digest.
theorem uploaded_tree_is_closed_of_nested :
    uploadTree Schedule.inOrder (fun m => ⟨m.directories.length, 0⟩) "/work" "/work/out"
        (.mk [.directory "a" (.mk [.directory "b" (.mk [])])]) =
        .ok ⟨⟨[], [⟨"a", some ⟨1, 0⟩⟩], []⟩,
          [⟨[], [], []⟩, ⟨[], [⟨"b", some ⟨0, 0⟩⟩], []⟩, ⟨[], [⟨"a", some ⟨1, 0⟩⟩], []⟩]⟩ ∧
      ∀ m ∈ ([⟨[], [], []⟩, ⟨[], [⟨"b", some ⟨0, 0⟩⟩], []⟩, ⟨[], [⟨"a", some ⟨1, 0⟩⟩], []⟩] : List ProtoDirectory),
        ∀ node ∈ m.directories, ∃ m' ∈ ([⟨[], [], []⟩, ⟨[], [⟨"b", some ⟨0, 0⟩⟩], []⟩,
          ⟨[], [⟨"a", some ⟨1, 0⟩⟩], []⟩] : List ProtoDirectory), node.digest = some ⟨m'.directories.length, 0⟩ := by
  have htree : uploadTree Schedule.inOrder (fun m => ⟨m.directories.length, 0⟩) "/work" "/work/out"
      (.mk [.directory "a" (.mk [.directory "b" (.mk [])])]) =
      .ok ⟨⟨[], [⟨"a", some ⟨1, 0⟩⟩], []⟩,
        [⟨[], [], []⟩, ⟨[], [⟨"b", some ⟨0, 0⟩⟩], []⟩, ⟨[], [⟨"a", some ⟨1, 0⟩⟩], []⟩]⟩ := by
    decide +kernel
  exact ⟨htree, uploaded_tree_is_closed _ Schedule.inOrder_valid (by decide +kernel) htree⟩

end Upload

end NativeLink.RunningActionsManager
