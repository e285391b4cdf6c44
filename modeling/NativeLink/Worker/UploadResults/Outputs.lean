import NativeLink.Worker.UploadResults

-- `RunningActionImpl::inner_upload_results` of `nativelink-worker/src/running_actions_manager.rs`:
-- after the command ran, each output path is looked at with `symlink_metadata` and uploaded as a
-- file, a directory (its `Tree`) or a symlink, by one future each in a `FuturesUnordered`. The
-- loop takes their outputs in the order they finish, stops at the first error, sorts each kind by
-- path and builds the `ActionResult`. What the file system holds at each full path is `fs`; the
-- order the output futures finish in is `order`, and each output directory's upload has its own
-- `Schedule`. Uploads to the CAS succeed: `treeDigestOf` and `digestOfBytes` are the digests
-- `serialize_and_upload_message` and `compute_buf_digest` give.

namespace NativeLink.RunningActionsManager

open Collect

/-! ## What is at an output path -/

-- What `fs::metadata` finds at the path a symlink leads to.
inductive TargetKind
  | directory
  | nonDirectory

-- What is at an output's full path: what `symlink_metadata` fails with, or the file's digest and
-- mode as `upload_file` reads them, the directory's tree, the symlink's target with what
-- `fs::metadata` finds where it leads, or something else (a socket, a device).
inductive OutputEntry
  | unreadable (e : Error)
  | file (digest : DigestInfo) (isExecutable : Bool)
  | directory (contents : Dir)
  | symlink (target : String) (leadsTo : Except Error TargetKind)
  | other

-- `FileInfo`.
structure FileInfo where
  nameOrPath : NameOrPath
  digest : DigestInfo
  isExecutable : Bool
  deriving DecidableEq

-- `DirectoryInfo`.
structure DirectoryInfo where
  path : String
  treeDigest : DigestInfo
  deriving DecidableEq

-- The text `NameOrPath`'s order compares.
def NameOrPath.lexical : NameOrPath → String
  | .name n => n
  | .path p => p

-- The `OutputType` of one output's future; `ignored` is `OutputType::None`.
inductive OutputType
  | ignored
  | file (info : FileInfo)
  | directory (info : DirectoryInfo)
  | fileSymlink (info : SymlinkInfo)
  | directorySymlink (info : SymlinkInfo)

def OutputType.file? : OutputType → Option FileInfo
  | .file info => some info
  | _ => none

def OutputType.directory? : OutputType → Option DirectoryInfo
  | .directory info => some info
  | _ => none

def OutputType.fileSymlink? : OutputType → Option SymlinkInfo
  | .fileSymlink info => some info
  | _ => none

def OutputType.directorySymlink? : OutputType → Option SymlinkInfo
  | .directorySymlink info => some info
  | _ => none

/-! ## One output -/

-- `upload_file`, past reading and hashing the file: the file name of the path.
def uploadFile (fullPath : String) (digest : DigestInfo) (isExecutable : Bool) : Except Error FileInfo :=
  match StdPath.fileName fullPath with
  | some name => .ok ⟨.name (String.ofList name), digest, isExecutable⟩
  | none => .error (fileNameErr fullPath)

-- `format!("{}/{}", work_directory, entry)`, with the command's working directory between them
-- when it is set.
def outputFullPath (workDirectory workingDirectory entry : String) : String :=
  if workingDirectory.isEmpty then workDirectory ++ "/" ++ entry
  else workDirectory ++ "/" ++ workingDirectory ++ "/" ++ entry

-- The future of one output path.
def uploadOutput (schedule : Schedule) (digestOf : ProtoDirectory → DigestInfo) (treeDigestOf : ProtoTree → DigestInfo)
    (workDirectory entry fullPath : String) : OutputEntry → Except Error OutputType
  | .unreadable e =>
    -- In the event our output does not exist, according to the bazel remote execution spec, we
    -- simply ignore it.
    if e.code = .notFound then .ok .ignored else .error (e.append ("Could not open file " ++ fullPath.quote))
  | .file digest isExecutable =>
    (uploadFile fullPath digest isExecutable).map (fun info => .file { info with nameOrPath := .path entry }) |>.mapError
      (·.append ("Uploading file " ++ fullPath.quote))
  | .directory contents =>
    (uploadTree schedule digestOf workDirectory fullPath contents).map (fun tree => .directory ⟨entry, treeDigestOf tree⟩)
      |>.mapError (·.append ("Uploading directory " ++ fullPath.quote))
  | .symlink target leadsTo => do
    let outputSymlink ← (uploadSymlink fullPath workDirectory target).map ({ · with nameOrPath := .path entry }) |>.mapError
      (·.append ("Uploading symlink " ++ fullPath.quote))
    match leadsTo with
    | .ok .directory => pure (.directorySymlink outputSymlink)
    -- Note: If it's anything but directory we put it as a file symlink.
    | .ok .nonDirectory => pure (.fileSymlink outputSymlink)
    | .error e =>
      if e.code ≠ .notFound then
        throw (e.append ("While querying target symlink metadata for " ++ fullPath.quote))
      -- If the file doesn't exist, we consider it a file.
      else pure (.fileSymlink outputSymlink)
  | .other => .error (Error.new .internal (fullPath.quote ++ " was not a file, folder or symlink. Must be one."))

/-! ## The action result -/

-- `ProtoCommand`, with the output directories that `inner_upload_results` reads as well.
structure UploadCommand extends Command where
  outputDirectories : List String

-- `RunningActionImplExecutionResult`.
structure ExecutionResult where
  stdout : List UInt8
  stderr : List UInt8
  exitCode : Int

-- `SystemTime`, in nanoseconds since the epoch; no time of the model lies before it.
abbrev SystemTime := Nat

-- `ExecutionMetadata`.
structure ExecutionMetadata where
  worker : String
  queuedTimestamp : SystemTime
  workerStartTimestamp : SystemTime
  workerCompletedTimestamp : SystemTime
  inputFetchStartTimestamp : SystemTime
  inputFetchCompletedTimestamp : SystemTime
  executionStartTimestamp : SystemTime
  executionCompletedTimestamp : SystemTime
  outputUploadStartTimestamp : SystemTime
  outputUploadCompletedTimestamp : SystemTime
  deriving DecidableEq

-- What `inner_upload_results` reads of the action's state besides the command and the run: the
-- execution metadata so far and the error of the run, and the three readings of `now_fn` it takes
-- as the upload starts, as it ends and as the worker completes.
structure UploadState where
  executionMetadata : ExecutionMetadata
  error : Option Error
  outputUploadStart : SystemTime
  outputUploadCompleted : SystemTime
  workerCompleted : SystemTime

-- `ActionResult`. `server_logs` is a list of its entries.
structure ActionResult where
  outputFiles : List FileInfo
  outputFolders : List DirectoryInfo
  outputDirectorySymlinks : List SymlinkInfo
  outputFileSymlinks : List SymlinkInfo
  exitCode : Int
  stdoutDigest : DigestInfo
  stderrDigest : DigestInfo
  executionMetadata : ExecutionMetadata
  serverLogs : List (String × DigestInfo)
  error : Option Error
  message : String
  deriving DecidableEq

-- The paths `inner_upload_results` uploads: `output_paths`, or when it is empty the output files
-- and then the output directories.
def UploadCommand.outputPathsToUpload (command : UploadCommand) : List String :=
  if command.outputPaths.isEmpty then command.outputFiles ++ command.outputDirectories
  else command.outputPaths

section Upload

variable (schedules : String → Schedule) (digestOf : ProtoDirectory → DigestInfo)
  (treeDigestOf : ProtoTree → DigestInfo) (digestOfBytes : List UInt8 → DigestInfo)
  (workDirectory : String) (fs : String → OutputEntry)

-- The future pushed into `output_path_futures` for the output path `entry`.
def outputPathFuture (command : UploadCommand) (entry : String) : Except Error OutputType :=
  let fullPath := outputFullPath workDirectory command.workingDirectory entry
  uploadOutput (schedules entry) digestOf treeDigestOf workDirectory entry fullPath (fs fullPath)

-- The futures pushed into `output_path_futures`, one for each output path in turn.
def outputPathFutures (command : UploadCommand) : List (Except Error OutputType) :=
  command.outputPathsToUpload.map (outputPathFuture schedules digestOf treeDigestOf workDirectory fs command)

-- The `ActionResult` of the outputs the loop took, each kind sorted as `sort_unstable_by` sorts it.
def buildActionResult (outputs : List OutputType) (executionResult : ExecutionResult) (state : UploadState) :
    ActionResult where
  outputFiles := sortBy (·.nameOrPath.lexical) (outputs.filterMap OutputType.file?)
  outputFolders := sortBy (·.path) (outputs.filterMap OutputType.directory?)
  outputDirectorySymlinks := sortBy (·.nameOrPath.lexical) (outputs.filterMap OutputType.directorySymlink?)
  outputFileSymlinks := sortBy (·.nameOrPath.lexical) (outputs.filterMap OutputType.fileSymlink?)
  exitCode := executionResult.exitCode
  stdoutDigest := digestOfBytes executionResult.stdout
  stderrDigest := digestOfBytes executionResult.stderr
  executionMetadata :=
    { state.executionMetadata with
      outputUploadStartTimestamp := state.outputUploadStart
      outputUploadCompletedTimestamp := state.outputUploadCompleted
      workerCompletedTimestamp := state.workerCompleted }
  serverLogs := []
  error := state.error
  -- filled in by `cache_action_result` if needed
  message := ""

-- `RunningActionImpl::inner_upload_results`, for output futures that finish in `order`. The
-- uploads of stdout and stderr to the CAS succeed.
def innerUploadResults (order : List Nat) (command : UploadCommand) (executionResult : ExecutionResult)
    (state : UploadState) : Except Error ActionResult := do
  let outputs ← (tryCollect order (outputPathFutures schedules digestOf treeDigestOf workDirectory fs command)).mapError
    (·.append "Error while uploading results")
  pure (buildActionResult digestOfBytes outputs executionResult state)

end Upload

/-! ## What each output is reported as -/

-- The four lists of an `ActionResult` an output can be reported in.
inductive OutputKind
  | file
  | directory
  | fileSymlink
  | directorySymlink
  deriving DecidableEq

-- The list an output goes to by what is at its path, when its upload succeeds: a symlink that
-- leads to a directory is a directory symlink, and any other one a file symlink.
def OutputEntry.kind : OutputEntry → Option OutputKind
  | .file .. => some .file
  | .directory _ => some .directory
  | .symlink _ (.ok .directory) => some .directorySymlink
  | .symlink _ _ => some .fileSymlink
  | .unreadable _ | .other => none

def OutputType.kind : OutputType → Option OutputKind
  | .ignored => none
  | .file _ => some .file
  | .directory _ => some .directory
  | .fileSymlink _ => some .fileSymlink
  | .directorySymlink _ => some .directorySymlink

-- The path an output is sorted by in its list.
def OutputType.path? : OutputType → Option String
  | .ignored => none
  | .file info => some info.nameOrPath.lexical
  | .directory info => some info.path
  | .fileSymlink info | .directorySymlink info => some info.nameOrPath.lexical

-- An output reported under the output path `entry`, named by that path.
def OutputType.NamedAs (entry : String) : OutputType → Prop
  | .ignored => True
  | .file info => info.nameOrPath = .path entry
  | .directory info => info.path = entry
  | .fileSymlink info | .directorySymlink info => info.nameOrPath = .path entry

-- The path an output is reported under in the list of kind `k`, when it goes to that list.
def OutputType.pathIn (k : OutputKind) (output : OutputType) : Option String :=
  if output.kind = some k then output.path? else none

-- Outputs reported under one path are one output.
def Keyed (outputs : List OutputType) : Prop :=
  ∀ y₁ ∈ outputs, ∀ y₂ ∈ outputs, ∀ p, y₁.path? = some p → y₂.path? = some p → y₁ = y₂

namespace OutputType

theorem map_picks (output : OutputType) :
    output.file?.map (·.nameOrPath.lexical) = output.pathIn .file ∧
      output.directory?.map (·.path) = output.pathIn .directory ∧
      output.fileSymlink?.map (·.nameOrPath.lexical) = output.pathIn .fileSymlink ∧
      output.directorySymlink?.map (·.nameOrPath.lexical) = output.pathIn .directorySymlink := by
  cases output <;> exact ⟨rfl, rfl, rfl, rfl⟩

theorem path?_of_namedAs {output : OutputType} {entry : String} (h : output.NamedAs entry) :
    output.path? = output.kind.map fun _ => entry := by
  cases output <;> simp only [NamedAs] at h <;> simp only [path?, kind, h, Option.map_some, Option.map_none] <;> rfl

theorem path?_of_pathIn {output : OutputType} {k : OutputKind} {p : String} (h : output.pathIn k = some p) :
    output.path? = some p := by
  unfold pathIn at h
  split at h
  case isTrue => exact h
  case isFalse => cases h

end OutputType

theorem keyed_of_perm {outputs outputs' : List OutputType} (h : outputs.Perm outputs') (hkeyed : Keyed outputs') :
    Keyed outputs :=
  fun y₁ h₁ y₂ h₂ => hkeyed y₁ (h.subset h₁) y₂ (h.subset h₂)

section Reported

variable {β : Type} {pick : OutputType → Option β} {key : β → String} {k : OutputKind}

theorem injOn_pick (hpick : ∀ y, (pick y).map key = y.pathIn k) {outputs : List OutputType}
    (hkeyed : Keyed outputs) : ∀ a ∈ outputs.filterMap pick, ∀ b ∈ outputs.filterMap pick, key a = key b → a = b := by
  intro a ha b hb hab
  obtain ⟨y₁, hy₁, ha'⟩ := List.mem_filterMap.mp ha
  obtain ⟨y₂, hy₂, hb'⟩ := List.mem_filterMap.mp hb
  have h₁ : y₁.pathIn k = some (key a) := by rw [← hpick, ha']; rfl
  have h₂ : y₂.pathIn k = some (key a) := by rw [← hpick, hb', hab]; rfl
  have heq : y₁ = y₂ :=
    hkeyed y₁ hy₁ y₂ hy₂ (key a) (OutputType.path?_of_pathIn h₁) (OutputType.path?_of_pathIn h₂)
  rw [heq, hb'] at ha'
  exact (Option.some.inj ha').symm

theorem map_sortBy_pick (hpick : ∀ y, (pick y).map key = y.pathIn k) (outputs : List OutputType) :
    (sortBy key (outputs.filterMap pick)).map key = sortBy id (outputs.filterMap (OutputType.pathIn k)) := by
  rw [map_sortBy, List.map_filterMap]
  exact congrArg (fun g => sortBy id (outputs.filterMap g)) (funext hpick)

end Reported

section Upload

variable (schedules : String → Schedule) (digestOf : ProtoDirectory → DigestInfo)
  (treeDigestOf : ProtoTree → DigestInfo) (digestOfBytes : List UInt8 → DigestInfo)
  (workDirectory : String) (fs : String → OutputEntry)

theorem uploadOutput_eq_ok {schedule : Schedule} {entry fullPath : String} {x : OutputEntry} {y : OutputType}
    (h : uploadOutput schedule digestOf treeDigestOf workDirectory entry fullPath x = .ok y) :
    y.kind = x.kind ∧ y.NamedAs entry := by
  cases x with
  | unreadable e =>
    by_cases hcode : e.code = .notFound
    case pos =>
      simp only [uploadOutput, if_pos hcode] at h
      cases h
      exact ⟨rfl, trivial⟩
    case neg =>
      simp only [uploadOutput, if_neg hcode] at h
      cases h
  | file digest isExecutable =>
    obtain ⟨info, -, rfl⟩ := map_eq_ok (mapError_eq_ok h)
    exact ⟨rfl, rfl⟩
  | directory contents =>
    obtain ⟨tree, -, rfl⟩ := map_eq_ok (mapError_eq_ok h)
    exact ⟨rfl, rfl⟩
  | symlink target leadsTo =>
    obtain ⟨info, hinfo, hy⟩ := bind_eq_ok h
    obtain ⟨info', -, rfl⟩ := map_eq_ok (mapError_eq_ok hinfo)
    split at hy
    case h_3 e =>
      by_cases hcode : e.code = .notFound
      case pos =>
        rw [if_neg (not_not.mpr hcode)] at hy
        cases hy
        exact ⟨rfl, rfl⟩
      case neg =>
        rw [if_pos hcode] at hy
        cases hy
    all_goals
      cases hy
      exact ⟨rfl, rfl⟩
  | other => cases h

-- What kind of output is at an output path once the action ran.
def outputKind (command : UploadCommand) (entry : String) : Option OutputKind :=
  (fs (outputFullPath workDirectory command.workingDirectory entry)).kind

-- The outputs when every future is taken in the order it was pushed; `none` when one fails.
def pushedOutputs (command : UploadCommand) : Option (List OutputType) :=
  (command.outputPathsToUpload.map fun entry =>
    (outputPathFuture schedules digestOf treeDigestOf workDirectory fs command entry).toOption).mapM id

-- The paths the list of kind `k` should hold: the output paths with an output of that kind, in
-- order.
def reportedPaths (command : UploadCommand) (k : OutputKind) : List String :=
  sortBy id (command.outputPathsToUpload.filter (outputKind workDirectory fs command · = some k))

theorem tryCollect_outputPathFutures {order : List Nat} {command : UploadCommand}
    (horder : order.Perm (List.range command.outputPathsToUpload.length)) :
    Option.Rel List.Perm (tryCollect order (outputPathFutures schedules digestOf treeDigestOf workDirectory fs command)).toOption
      (pushedOutputs schedules digestOf treeDigestOf workDirectory fs command) := by
  have hlen : (outputPathFutures schedules digestOf treeDigestOf workDirectory fs command).length =
      command.outputPathsToUpload.length := List.length_map _
  have hrel := tryCollect_rel_perm (hlen ▸ horder)
  rwa [outputPathFutures, List.map_map] at hrel

variable {schedules digestOf treeDigestOf digestOfBytes workDirectory fs}

theorem pathIn_of_outputPathFuture {command : UploadCommand} {entry : String} {y : OutputType}
    (h : outputPathFuture schedules digestOf treeDigestOf workDirectory fs command entry = .ok y) (k : OutputKind) :
    y.pathIn k = if outputKind workDirectory fs command entry = some k then some entry else none := by
  obtain ⟨hkind, hnamed⟩ := uploadOutput_eq_ok digestOf treeDigestOf workDirectory h
  unfold OutputType.pathIn outputKind
  rw [OutputType.path?_of_namedAs hnamed, hkind]
  by_cases hk : (fs (outputFullPath workDirectory command.workingDirectory entry)).kind = some k
  case pos => rw [if_pos hk, if_pos hk, hk]; rfl
  case neg => rw [if_neg hk, if_neg hk]

theorem path?_of_outputPathFuture {command : UploadCommand} {entry p : String} {y : OutputType}
    (h : outputPathFuture schedules digestOf treeDigestOf workDirectory fs command entry = .ok y)
    (hp : y.path? = some p) : p = entry := by
  obtain ⟨-, hnamed⟩ := uploadOutput_eq_ok digestOf treeDigestOf workDirectory h
  rw [OutputType.path?_of_namedAs hnamed] at hp
  obtain ⟨_, -, he⟩ := Option.map_eq_some_iff.mp hp
  exact he.symm

theorem keyed_of_pushedOutputs {command : UploadCommand} {outputs : List OutputType}
    (h : pushedOutputs schedules digestOf treeDigestOf workDirectory fs command = some outputs) : Keyed outputs := by
  intro y₁ h₁ y₂ h₂ p hp₁ hp₂
  obtain ⟨e₁, -, he₁⟩ := mem_of_mapM_id h h₁
  obtain ⟨e₂, -, he₂⟩ := mem_of_mapM_id h h₂
  have hy₁ := eq_ok_of_toOption he₁
  have hy₂ := eq_ok_of_toOption he₂
  have he₁p := path?_of_outputPathFuture hy₁ hp₁
  have he₂p := path?_of_outputPathFuture hy₂ hp₂
  subst he₁p he₂p
  rw [hy₁] at hy₂
  exact Except.ok.inj hy₂

theorem filterMap_pathIn_pushedOutputs {command : UploadCommand} {outputs : List OutputType}
    (h : pushedOutputs schedules digestOf treeDigestOf workDirectory fs command = some outputs) (k : OutputKind) :
    outputs.filterMap (OutputType.pathIn k) =
      command.outputPathsToUpload.filter (outputKind workDirectory fs command · = some k) := by
  rw [← List.filterMap_eq_filter]
  refine filterMap_of_mapM_id (fun entry y hy => ?_) h
  rw [pathIn_of_outputPathFuture (eq_ok_of_toOption hy) k, Option.guard]
  simp only [decide_eq_true_eq]

theorem innerUploadResults_toOption (order : List Nat) (command : UploadCommand) (executionResult : ExecutionResult)
    (state : UploadState) :
    (innerUploadResults schedules digestOf treeDigestOf digestOfBytes workDirectory fs order command
        executionResult state).toOption =
      (tryCollect order (outputPathFutures schedules digestOf treeDigestOf workDirectory fs command)).toOption.map
        (buildActionResult digestOfBytes · executionResult state) := by
  rw [innerUploadResults, toOption_bind, toOption_mapError]
  cases (tryCollect order _).toOption <;> rfl

theorem buildActionResult_eq_of_perm {outputs outputs' : List OutputType} (h : outputs.Perm outputs')
    (hkeyed : Keyed outputs) (executionResult : ExecutionResult) (state : UploadState) :
    buildActionResult digestOfBytes outputs executionResult state =
      buildActionResult digestOfBytes outputs' executionResult state := by
  unfold buildActionResult
  rw [sortBy_eq_of_perm_of_injOn (h.filterMap _) (injOn_pick (fun y => (OutputType.map_picks y).1) hkeyed),
    sortBy_eq_of_perm_of_injOn (h.filterMap _) (injOn_pick (fun y => (OutputType.map_picks y).2.1) hkeyed),
    sortBy_eq_of_perm_of_injOn (h.filterMap _) (injOn_pick (fun y => (OutputType.map_picks y).2.2.2) hkeyed),
    sortBy_eq_of_perm_of_injOn (h.filterMap _) (injOn_pick (fun y => (OutputType.map_picks y).2.2.1) hkeyed)]

theorem map_sortBy_pick_eq_reportedPaths {β : Type} {pick : OutputType → Option β} {key : β → String}
    {k : OutputKind} (hpick : ∀ y, (pick y).map key = y.pathIn k) {command : UploadCommand}
    {outputs pushed : List OutputType}
    (hpushed : pushedOutputs schedules digestOf treeDigestOf workDirectory fs command = some pushed)
    (hperm : outputs.Perm pushed) :
    (sortBy key (outputs.filterMap pick)).map key = reportedPaths workDirectory fs command k := by
  rw [map_sortBy_pick hpick, sortBy_id_eq_of_perm (hperm.filterMap _),
    filterMap_pathIn_pushedOutputs hpushed, reportedPaths]

variable (schedules digestOf treeDigestOf digestOfBytes workDirectory fs)

theorem upload_results_do_not_depend_on_completion_order (order₁ order₂ : List Nat) (command : UploadCommand)
    (executionResult : ExecutionResult) (state : UploadState)
    (h₁ : order₁.Perm (List.range command.outputPathsToUpload.length))
    (h₂ : order₂.Perm (List.range command.outputPathsToUpload.length)) :
    (innerUploadResults schedules digestOf treeDigestOf digestOfBytes workDirectory fs order₁ command
        executionResult state).toOption =
      (innerUploadResults schedules digestOf treeDigestOf digestOfBytes workDirectory fs order₂ command
        executionResult state).toOption := by
  rw [innerUploadResults_toOption, innerUploadResults_toOption]
  -- both completion orders take the outputs of the push order, each in its own order
  have hrel₁ := tryCollect_outputPathFutures schedules digestOf treeDigestOf workDirectory fs h₁
  have hrel₂ := tryCollect_outputPathFutures schedules digestOf treeDigestOf workDirectory fs h₂
  generalize (tryCollect order₁ (outputPathFutures schedules digestOf treeDigestOf workDirectory fs
    command)).toOption = o₁ at hrel₁ ⊢
  generalize (tryCollect order₂ (outputPathFutures schedules digestOf treeDigestOf workDirectory fs
    command)).toOption = o₂ at hrel₂ ⊢
  generalize hpushed : pushedOutputs schedules digestOf treeDigestOf workDirectory fs command = pushed
    at hrel₁ hrel₂
  cases hrel₁ with
  | none =>
    cases hrel₂
    rfl
  | some hperm₁ =>
    cases hrel₂ with
    | some hperm₂ =>
      have hkeyed := keyed_of_pushedOutputs hpushed
      rw [Option.map_some, Option.map_some,
        buildActionResult_eq_of_perm hperm₁ (keyed_of_perm hperm₁ hkeyed),
        buildActionResult_eq_of_perm hperm₂ (keyed_of_perm hperm₂ hkeyed)]

-- The outputs a run left: a file `a`, an empty directory `d` and a symlink `l` to `a`; `gone` is
-- missing.
def ranOutputs (fullPath : String) : OutputEntry :=
  if fullPath = "/work/a" then .file ⟨1, 1⟩ false
  else if fullPath = "/work/d" then .directory (.mk [])
  else if fullPath = "/work/l" then .symlink "a" (.ok .nonDirectory)
  else .unreadable (Error.new .notFound "")

def ranCommand : UploadCommand := ⟨⟨"", [], ["l", "gone", "d", "a"]⟩, []⟩

def ranState : UploadState := ⟨⟨"", 0, 0, 0, 0, 0, 0, 0, 0, 0⟩, none, 1, 2, 3⟩

-- The four outputs finished in push order and out of order.
theorem upload_results_do_not_depend_on_completion_order_of_four_outputs :
    [0, 1, 2, 3].Perm (List.range ranCommand.outputPathsToUpload.length) ∧
      [3, 1, 0, 2].Perm (List.range ranCommand.outputPathsToUpload.length) ∧
      (innerUploadResults (fun _ => Schedule.inOrder) (fun _ => ⟨0, 0⟩) (fun _ => ⟨7, 0⟩) (fun b => ⟨b.length, 0⟩) "/work" ranOutputs
          [0, 1, 2, 3] ranCommand ⟨[], [], 0⟩ ranState).toOption =
        (innerUploadResults (fun _ => Schedule.inOrder) (fun _ => ⟨0, 0⟩) (fun _ => ⟨7, 0⟩) (fun b => ⟨b.length, 0⟩) "/work" ranOutputs
          [3, 1, 0, 2] ranCommand ⟨[], [], 0⟩ ranState).toOption :=
  ⟨by decide, by decide,
    upload_results_do_not_depend_on_completion_order _ _ _ _ _ _ [0, 1, 2, 3] [3, 1, 0, 2] _ _ _ (by decide)
      (by decide)⟩

theorem upload_results_report_each_output_in_its_kind (order : List Nat) (command : UploadCommand)
    (executionResult : ExecutionResult) (state : UploadState) (result : ActionResult)
    (horder : order.Perm (List.range command.outputPathsToUpload.length))
    (hresult : innerUploadResults schedules digestOf treeDigestOf digestOfBytes workDirectory fs order command
      executionResult state = .ok result) :
    result.outputFiles.map (·.nameOrPath.lexical) = reportedPaths workDirectory fs command .file ∧
      result.outputFolders.map (·.path) = reportedPaths workDirectory fs command .directory ∧
      result.outputFileSymlinks.map (·.nameOrPath.lexical) = reportedPaths workDirectory fs command .fileSymlink ∧
      result.outputDirectorySymlinks.map (·.nameOrPath.lexical) =
        reportedPaths workDirectory fs command .directorySymlink := by
  have hsome := congrArg Except.toOption hresult
  rw [innerUploadResults_toOption] at hsome
  obtain ⟨outputs, houtputs, rfl⟩ := Option.map_eq_some_iff.mp hsome
  have hrel := tryCollect_outputPathFutures schedules digestOf treeDigestOf workDirectory fs horder
  rw [houtputs] at hrel
  obtain ⟨pushed, hpushed, hperm⟩ := rel_some_left hrel
  exact ⟨map_sortBy_pick_eq_reportedPaths (fun y => (OutputType.map_picks y).1) hpushed hperm,
    map_sortBy_pick_eq_reportedPaths (fun y => (OutputType.map_picks y).2.1) hpushed hperm,
    map_sortBy_pick_eq_reportedPaths (fun y => (OutputType.map_picks y).2.2.1) hpushed hperm,
    map_sortBy_pick_eq_reportedPaths (fun y => (OutputType.map_picks y).2.2.2) hpushed hperm⟩

-- The four outputs finished out of order: each is listed by its kind, and `gone` nowhere.
theorem upload_results_report_each_output_in_its_kind_of_four_outputs :
    [3, 1, 0, 2].Perm (List.range ranCommand.outputPathsToUpload.length) ∧
      innerUploadResults (fun _ => Schedule.inOrder) (fun _ => ⟨0, 0⟩) (fun _ => ⟨7, 0⟩) (fun b => ⟨b.length, 0⟩) "/work" ranOutputs [3, 1, 0, 2] ranCommand
          ⟨[], [], 0⟩ ranState =
        .ok ⟨[⟨.path "a", ⟨1, 1⟩, false⟩], [⟨"d", ⟨7, 0⟩⟩], [], [⟨.path "l", "a"⟩], 0, ⟨0, 0⟩, ⟨0, 0⟩,
          ⟨"", 0, 0, 3, 0, 0, 0, 0, 1, 2⟩, [], none, ""⟩ ∧
      ["a"] = reportedPaths "/work" ranOutputs ranCommand .file ∧
      ["d"] = reportedPaths "/work" ranOutputs ranCommand .directory ∧
      ["l"] = reportedPaths "/work" ranOutputs ranCommand .fileSymlink ∧
      [] = reportedPaths "/work" ranOutputs ranCommand .directorySymlink := by
  have hresult : innerUploadResults (fun _ => Schedule.inOrder) (fun _ => ⟨0, 0⟩) (fun _ => ⟨7, 0⟩) (fun b => ⟨b.length, 0⟩) "/work" ranOutputs [3, 1, 0, 2]
      ranCommand ⟨[], [], 0⟩ ranState =
      .ok ⟨[⟨.path "a", ⟨1, 1⟩, false⟩], [⟨"d", ⟨7, 0⟩⟩], [], [⟨.path "l", "a"⟩], 0, ⟨0, 0⟩, ⟨0, 0⟩,
        ⟨"", 0, 0, 3, 0, 0, 0, 0, 1, 2⟩, [], none, ""⟩ := by
    decide +kernel
  exact ⟨by decide, hresult, upload_results_report_each_output_in_its_kind _ _ _ _ _ _ _ _ _ _ _ (by decide) hresult⟩

end Upload

end NativeLink.RunningActionsManager
