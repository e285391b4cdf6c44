import NativeLink.Util.EvictingMap.Expiry
import NativeLink.Util.StoreTrait
import Mathlib

-- Model of the startup of `nativelink-store/src/filesystem_store.rs`. `FilesystemStore::new` makes
-- the eviction map with the start time as its anchor and loads the content files already on disk:
-- the digest folder, then the string folder, each in the order its directory listing came in. A
-- file goes into the map stamped with `anchor_time.duration_since(atime)`, the seconds from its
-- access time to the anchor. Times are whole seconds since the epoch, and the parse of a file name
-- into a key (`key_from_file`) is a parameter.

namespace NativeLink

-- `FileEntryImpl`, without its path.
structure FileEntryImpl where
  dataSize : Nat
  blockSize : Nat

-- `size_on_disk`: the data rounded up to whole blocks, as `div_ceil` does for a block size above
-- zero, which `FilesystemStore::new` ensures.
def FileEntryImpl.sizeOnDisk (e : FileEntryImpl) : Nat :=
  (e.dataSize + e.blockSize - 1) / e.blockSize * e.blockSize

instance : LenEntry FileEntryImpl :=
  ⟨FileEntryImpl.sizeOnDisk⟩

inductive FileType
  | digest
  | string

-- What `read_files` reports of a directory entry: its name, access time, length, and whether it
-- is a file to load.
structure FileInfo where
  fileName : String
  atime : Nat
  dataSize : Nat
  isFile : Bool

-- `nativelink_config::stores::FilesystemSpec`, without its paths and buffer size.
structure FilesystemSpec where
  evictionPolicy : Option EvictionPolicy
  blockSize : Nat

structure FilesystemStore where
  evictingMap : EvictingMap
  blockSize : Nat

namespace FilesystemStore

open EvictingMap EStateM

def defaultBlockSize : Nat :=
  4 * 1024

variable {K : Type} [LinearOrder K] (m : EvictingMap) (keyFromFile : String → FileType → Except Error K)

-- `process_entry`. The map's clock, `anchor_time.elapsed()`, reads `now` while the files load.
def processEntry (now anchorTime blockSize : Nat) (fileType : FileType) (info : FileInfo) :
    Program K FileEntryImpl (Except Error Unit) :=
  match keyFromFile info.fileName fileType with
  | .error e => pure (.error e)
  | .ok key =>
    let fileEntry : FileEntryImpl := ⟨info.dataSize, blockSize⟩
    if anchorTime < info.atime then pure (.error (makeInputErr "File access time newer than now"))
    else do
      -- `time_since_anchor.as_secs() as i32`
      let _ ← m.insertWithTime now key fileEntry (Int32.ofNat (anchorTime - info.atime))
      pure (.ok ())

-- The loop of the inner `add_files_to_cache` over one folder. A file that `process_entry` rejects
-- is deleted from disk, which the map does not see.
def addFilesToCacheFolder (now anchorTime blockSize : Nat) (fileType : FileType) :
    List FileInfo → Program K FileEntryImpl Unit
  | [] => pure ()
  | info :: infos => do
    if info.isFile then
      let _ ← processEntry m keyFromFile now anchorTime blockSize fileType info
    addFilesToCacheFolder now anchorTime blockSize fileType infos

-- `add_files_to_cache`: the digest folder, then the string folder.
def addFilesToCache (now anchorTime blockSize : Nat) (digestFiles strFiles : List FileInfo) :
    Program K FileEntryImpl Unit := do
  addFilesToCacheFolder m keyFromFile now anchorTime blockSize .digest digestFiles
  addFilesToCacheFolder m keyFromFile now anchorTime blockSize .string strFiles

-- `FilesystemStore::new`, started `anchorTime` seconds after the epoch, with the listings of the
-- two folders: the store and the state its map is left in.
def new (spec : FilesystemSpec) (now anchorTime : Nat) (digestFiles strFiles : List FileInfo) :
    FilesystemStore × State K FileEntryImpl :=
  let evictingMap := EvictingMap.new (spec.evictionPolicy.getD MemoryStore.emptyPolicy)
  let blockSize := if spec.blockSize = 0 then defaultBlockSize else spec.blockSize
  (⟨evictingMap, blockSize⟩,
    ((addFilesToCache evictingMap keyFromFile now anchorTime blockSize digestFiles strFiles).run
      State.new).state)

-- The calls of the map that loading a folder makes: an `insert_with_time` for each file whose name
-- parses and whose access time is not after the anchor, stamped with the seconds between the two.
def insertsOf (now anchorTime blockSize : Nat) (fileType : FileType) (infos : List FileInfo) :
    List (Nat × Op K FileEntryImpl) :=
  infos.filterMap fun info =>
    if info.isFile then
      match keyFromFile info.fileName fileType with
      | .ok key =>
        if anchorTime < info.atime then none
        else some (now, .insertWithTime key ⟨info.dataSize, blockSize⟩ (Int32.ofNat (anchorTime - info.atime)))
      | .error _ => none
    else none

variable {m keyFromFile}

theorem insertWithTime_run {s : State K FileEntryImpl} (hs : s.Accounted) (now : Nat) (key : K)
    (data : FileEntryImpl) (secs : Int32) :
    ∃ r, (m.insertWithTime now key data secs).run s = .ok r (m.step s (now, .insertWithTime key data secs)) ∧
      (m.step s (now, .insertWithTime key data secs)).Accounted := by
  have hpost : Post (fun _ s' => WithinLimits m s') (fun _ _ => False) ((m.insertWithTime now key data secs).run s) :=
    Post.bind (innerInsertMany_withinLimits secs [(key, data)] s hs (List.cons_ne_nil _ _)) fun _ _ h => h
  obtain ⟨r, s', hrun, hw⟩ := hpost.exists_ok
  have hstep : m.step s (now, .insertWithTime key data secs) = s' := by
    show ((discard (m.insertWithTime now key data secs)).run s).state = s'
    rw [show discard (m.insertWithTime now key data secs) = (fun _ => ()) <$> m.insertWithTime now key data secs from rfl,
      state_run_map, hrun]
    rfl
  exact ⟨r, by rw [hstep]; exact hrun, hstep ▸ hw.1⟩

theorem processEntry_run {s : State K FileEntryImpl} (hs : s.Accounted) (now anchorTime blockSize : Nat)
    (fileType : FileType) {info : FileInfo} (hf : info.isFile = true) :
    ∃ r, (processEntry m keyFromFile now anchorTime blockSize fileType info).run s =
        .ok r ((insertsOf keyFromFile now anchorTime blockSize fileType [info]).foldl m.step s) ∧
      ((insertsOf keyFromFile now anchorTime blockSize fileType [info]).foldl m.step s).Accounted := by
  simp only [processEntry, insertsOf, List.filterMap_cons, List.filterMap_nil, hf, if_true]
  cases hkey : keyFromFile info.fileName fileType
  case error e => exact ⟨_, rfl, hs⟩
  case ok key =>
    by_cases hnewer : anchorTime < info.atime
    case pos =>
      simp only [hnewer, if_true]
      exact ⟨_, rfl, hs⟩
    case neg =>
      simp only [hnewer, if_false, List.foldl_cons, List.foldl_nil]
      obtain ⟨r, hrun, hs'⟩ := insertWithTime_run (m := m) hs now key ⟨info.dataSize, blockSize⟩
        (Int32.ofNat (anchorTime - info.atime))
      exact ⟨_, run_bind_of_ok hrun, hs'⟩

theorem addFilesToCacheFolder_run (now anchorTime blockSize : Nat) (fileType : FileType) (infos : List FileInfo) :
    ∀ s : State K FileEntryImpl, s.Accounted →
      (addFilesToCacheFolder m keyFromFile now anchorTime blockSize fileType infos).run s =
        .ok () ((insertsOf keyFromFile now anchorTime blockSize fileType infos).foldl m.step s) := by
  induction infos with
  | nil => intro s _; rfl
  | cons info infos ih =>
    intro s hs
    have hsplit : insertsOf keyFromFile now anchorTime blockSize fileType (info :: infos) =
        insertsOf keyFromFile now anchorTime blockSize fileType [info] ++
          insertsOf keyFromFile now anchorTime blockSize fileType infos := by
      rw [← List.singleton_append]
      exact List.filterMap_append
    rw [hsplit, List.foldl_append]
    simp only [addFilesToCacheFolder]
    by_cases hf : info.isFile = true
    case pos =>
      obtain ⟨r, hrun, hs'⟩ := processEntry_run (m := m) hs now anchorTime blockSize fileType hf
      rw [if_pos hf, run_bind_of_ok hrun]
      exact ih _ hs'
    case neg =>
      have hnone : insertsOf keyFromFile now anchorTime blockSize fileType [info] = [] := by
        simp [insertsOf, hf]
      rw [if_neg hf, hnone, List.foldl_nil]
      exact ih s hs

-- A restart is a run of the store's map: the inserts of the digest folder's files, then those of
-- the string folder's, each in the order of its listing and stamped with the seconds from the
-- file's access time to the anchor.
theorem new_state (spec : FilesystemSpec) (now anchorTime : Nat) (digestFiles strFiles : List FileInfo) :
    (new keyFromFile spec now anchorTime digestFiles strFiles).2 =
      (new keyFromFile spec now anchorTime digestFiles strFiles).1.evictingMap.run
        (insertsOf keyFromFile now anchorTime (new keyFromFile spec now anchorTime digestFiles strFiles).1.blockSize
            .digest digestFiles ++
          insertsOf keyFromFile now anchorTime (new keyFromFile spec now anchorTime digestFiles strFiles).1.blockSize
            .string strFiles) := by
  simp only [new, addFilesToCache]
  generalize EvictingMap.new (spec.evictionPolicy.getD MemoryStore.emptyPolicy) = m'
  generalize (if spec.blockSize = 0 then defaultBlockSize else spec.blockSize) = blockSize
  have hs : ((insertsOf keyFromFile now anchorTime blockSize .digest digestFiles).foldl m'.step State.new).Accounted :=
    accounted_invariant.run rfl _
  rw [run_bind_of_ok (addFilesToCacheFolder_run now anchorTime blockSize .digest digestFiles State.new rfl),
    addFilesToCacheFolder_run _ _ _ _ _ _ hs]
  simp only [EvictingMap.run, List.foldl_append, Result.state_ok]

-- A restart at `1000` with `max_seconds = 50` and `max_count = 2`, over the string files `b`,
-- accessed at `995`, and `a`, accessed at `900`, listed in that order. `a` is stamped `+100`, as if
-- touched 100 seconds after the restart, so it has not expired although it was last accessed 100
-- seconds before it; and it is the most recently used entry, so a third entry evicts `b`.
theorem restart_inverts_recency :
    ∃ s s' : State String FileEntryImpl,
      (new (fun (name : String) (_ : FileType) => (Except.ok name : Except Error String))
          ⟨some ⟨0, 0, 50, 2⟩, 0⟩ 0 1000 [] [⟨"b", 995, 1, true⟩, ⟨"a", 900, 1, true⟩]).2 = s ∧
        s.lru.keys = ["b", "a"] ∧
        (s.lru.peek "a").map (·.secondsSinceAnchor) = some 100 ∧
        ((s.lru.peek "a").any fun e => decide ¬(EvictingMap.new ⟨0, 0, 50, 2⟩).Expired 0 e) = true ∧
        (EvictingMap.new ⟨0, 0, 50, 2⟩).step s (0, .insert "c" ⟨1, defaultBlockSize⟩) = s' ∧
        s'.lru.keys = ["a", "c"] := by
  refine ⟨_, _, rfl, ?_, ?_, ?_, rfl, ?_⟩ <;> decide +kernel

end FilesystemStore

end NativeLink
