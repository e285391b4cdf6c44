import NativeLink.Worker.UploadResults.Outputs
import NativeLink.Util.DigestInfo
import Mathlib

-- The proto form of what a worker reports when an action completes. The worker turns its
-- `ActionResult` into an `ExecuteResponse` with `to_execute_response` and sends it with
-- `execution_response` (`nativelink-worker/src/local_worker.rs`); the scheduler's
-- `inner_execution_response` (`nativelink-service/src/worker_api_server.rs`) turns it back into an
-- `ActionStage`. The conversions are those of `nativelink-util/src/action_messages.rs`, of digests
-- in `nativelink-util/src/common.rs` and of errors in `nativelink-error/src/lib.rs`. A conversion
-- that panics gives `none`. `SystemTime` goes to and from `prost_types::Timestamp` by the prost
-- crate, not by this repository: the two conversions are the parameters `toTimestamp` and
-- `ofTimestamp`.

namespace NativeLink

/-! ## Digests, codes and statuses -/

-- `Digest`.
structure Digest where
  hash : String
  sizeBytes : Int
  deriving DecidableEq

-- `google.rpc.Status`; its `details` are always empty here.
structure Status where
  code : Int
  message : String
  deriving DecidableEq

-- `Status::default()`.
def Status.default : Status := ⟨0, ""⟩

-- `err_tip` on an `Option`: a missing value is an `Internal` error with the tip as its message.
def optionErrTip {α : Type} (value : Option α) (tip : String) : Except Error α :=
  match value with
  | some a => .ok a
  | none => .error ⟨.internal, [tip]⟩

namespace DigestInfo

-- `From<DigestInfo> for Digest`: the hex of the hash, and the size as an `i64`, or -255 when it
-- does not fit.
def toDigest (d : DigestInfo) : Digest :=
  ⟨String.ofList (PackedHash.toHex d.packedHash), if d.sizeBytes ≤ i64Max then d.sizeBytes else -255⟩

-- `TryFrom<Digest> for DigestInfo`.
def tryFromDigest (digest : Digest) : Except Error DigestInfo :=
  let hash := digest.hash
  let sizeBytes := digest.sizeBytes
  match PackedHash.fromHex hash.toList with
  | .error e => .error (e.append s!"Invalid sha256 hash: {hash}")
  | .ok packedHash =>
    if sizeBytes < 0 then .error (makeInputErr s!"Could not convert {sizeBytes} into u64")
    else .ok ⟨packedHash, sizeBytes.toNat⟩

-- A digest its proto form can carry: 32 bytes of hash and a size that is an `i64`.
def Valid (d : DigestInfo) : Prop :=
  d.packedHash < 2 ^ 256 ∧ d.sizeBytes ≤ i64Max

instance decidableValid : DecidablePred Valid :=
  fun d => inferInstanceAs (Decidable (d.packedHash < 2 ^ 256 ∧ d.sizeBytes ≤ i64Max))

theorem tryFromDigest_toDigest {d : DigestInfo} (hd : d.Valid) : tryFromDigest d.toDigest = .ok d := by
  obtain ⟨hhash, hsize⟩ := hd
  have hnonneg : ¬((d.sizeBytes : Int) < 0) := by omega
  simp only [tryFromDigest, toDigest, String.toList_ofList, PackedHash.fromHex_toHex hhash, if_pos hsize,
    if_neg hnonneg, Int.toNat_natCast]

end DigestInfo

namespace Code

-- `code as i32`: the gRPC number of the code.
def toI32 : Code → Int
  | ok => 0
  | cancelled => 1
  | unknown => 2
  | invalidArgument => 3
  | deadlineExceeded => 4
  | notFound => 5
  | alreadyExists => 6
  | permissionDenied => 7
  | resourceExhausted => 8
  | failedPrecondition => 9
  | aborted => 10
  | outOfRange => 11
  | unimplemented => 12
  | internal => 13
  | unavailable => 14
  | dataLoss => 15
  | unauthenticated => 16

-- `From<i32> for Code`: the code of that number, and `Unknown` for a number that names none.
def ofI32 (code : Int) : Code :=
  if code = 0 then ok else if code = 1 then cancelled else if code = 2 then unknown
  else if code = 3 then invalidArgument else if code = 4 then deadlineExceeded
  else if code = 5 then notFound else if code = 6 then alreadyExists
  else if code = 7 then permissionDenied else if code = 8 then resourceExhausted
  else if code = 9 then failedPrecondition else if code = 10 then aborted
  else if code = 11 then outOfRange else if code = 12 then unimplemented
  else if code = 13 then internal else if code = 14 then unavailable
  else if code = 15 then dataLoss else if code = 16 then unauthenticated
  else unknown

theorem ofI32_toI32 (code : Code) : ofI32 code.toI32 = code := by
  cases code <;> rfl

theorem toI32_eq_zero_iff {code : Code} : code.toI32 = 0 ↔ code = ok := by
  cases code <;> decide

end Code

namespace Error

-- `Error::message_string`.
def messageString (e : Error) : String :=
  " : ".intercalate e.messages

-- `From<Error> for Status`.
def toStatus (e : Error) : Status :=
  ⟨e.code.toI32, e.messageString⟩

end Error

-- `From<Status> for Error`.
def Status.toError (s : Status) : Error :=
  ⟨Code.ofI32 s.code, [s.message]⟩

-- What an error is once it went through a `Status` and back: its messages joined into one, and
-- nothing for an error of code `Ok`, which reads back as no error.
def Error.throughStatus (e : Error) : Option Error :=
  if e.code = .ok then none else some ⟨e.code, [e.messageString]⟩

theorem status_bind_toError (error : Option Error) :
    (some ((error.map Error.toStatus).getD Status.default)).bind
        (fun status => if status.code = 0 then none else some status.toError) =
      error.bind Error.throughStatus := by
  cases error with
  | none => rfl
  | some e =>
    simp only [Option.map_some, Option.getD_some, Option.bind_some, Error.toStatus, Status.toError,
      Code.ofI32_toI32, Code.toI32_eq_zero_iff, Error.throughStatus]

end NativeLink

namespace NativeLink.RunningActionsManager

open Collect

/-! ## The messages of an action result -/

-- `prost_types::Timestamp`.
structure Timestamp where
  seconds : Int
  nanos : Int
  deriving DecidableEq

-- `OutputFile`; its `contents` are always empty here and `node_properties` are not supported.
structure OutputFile where
  path : String
  digest : Option Digest
  isExecutable : Bool
  deriving DecidableEq

-- `OutputSymlink`.
structure OutputSymlink where
  path : String
  target : String
  deriving DecidableEq

-- `OutputDirectory`.
structure OutputDirectory where
  path : String
  treeDigest : Option Digest
  isTopologicallySorted : Bool
  deriving DecidableEq

-- `ExecutedActionMetadata`, without `virtual_execution_duration`, which is never read back, and the
-- auxiliary metadata, which is always empty.
structure ExecutedActionMetadata where
  worker : String
  queuedTimestamp : Option Timestamp
  workerStartTimestamp : Option Timestamp
  workerCompletedTimestamp : Option Timestamp
  inputFetchStartTimestamp : Option Timestamp
  inputFetchCompletedTimestamp : Option Timestamp
  executionStartTimestamp : Option Timestamp
  executionCompletedTimestamp : Option Timestamp
  outputUploadStartTimestamp : Option Timestamp
  outputUploadCompletedTimestamp : Option Timestamp
  deriving DecidableEq

-- `ProtoActionResult`; the raw stdout and stderr are always empty here.
structure ProtoActionResult where
  outputFiles : List OutputFile
  outputFileSymlinks : List OutputSymlink
  outputSymlinks : List OutputSymlink
  outputDirectories : List OutputDirectory
  outputDirectorySymlinks : List OutputSymlink
  exitCode : Int
  stdoutDigest : Option Digest
  stderrDigest : Option Digest
  executionMetadata : Option ExecutedActionMetadata
  deriving DecidableEq

-- `LogFile`.
structure LogFile where
  digest : Option Digest
  humanReadable : Bool
  deriving DecidableEq

-- `ExecuteResponse`; `server_logs` is a list of its entries.
structure ExecuteResponse where
  result : Option ProtoActionResult
  cachedResult : Bool
  status : Option Status
  serverLogs : List (String × LogFile)
  message : String
  deriving DecidableEq

-- `ExecuteResponse::default()`.
def ExecuteResponse.default : ExecuteResponse := ⟨none, false, none, [], ""⟩

-- `ActionStage`, with the worker's `ActionResult`.
inductive ActionStage
  | unknown
  | cacheCheck
  | queued
  | executing
  | completed (result : ActionResult)
  | completedFromCache (result : ProtoActionResult)
  deriving DecidableEq

/-! ## Conversions -/

namespace FileInfo

-- `From<FileInfo> for OutputFile`, which panics on a file named by its name.
def toOutputFile (info : FileInfo) : Option OutputFile :=
  match info.nameOrPath with
  | .path path => some ⟨path, some info.digest.toDigest, info.isExecutable⟩
  | .name _ => none

-- `TryFrom<OutputFile> for FileInfo`.
def tryFromOutputFile (outputFile : OutputFile) : Except Error FileInfo := do
  let digest ← optionErrTip outputFile.digest "Expected digest to exist on OutputFile"
  let digest ← DigestInfo.tryFromDigest digest
  pure ⟨.path outputFile.path, digest, outputFile.isExecutable⟩

end FileInfo

namespace SymlinkInfo

-- `From<SymlinkInfo> for OutputSymlink`, which panics on a symlink named by its name.
def toOutputSymlink (info : SymlinkInfo) : Option OutputSymlink :=
  match info.nameOrPath with
  | .path path => some ⟨path, info.target⟩
  | .name _ => none

-- `TryFrom<OutputSymlink> for SymlinkInfo`.
def tryFromOutputSymlink (outputSymlink : OutputSymlink) : Except Error SymlinkInfo :=
  .ok ⟨.path outputSymlink.path, outputSymlink.target⟩

end SymlinkInfo

namespace DirectoryInfo

-- `From<DirectoryInfo> for OutputDirectory`.
def toOutputDirectory (info : DirectoryInfo) : OutputDirectory :=
  ⟨info.path, some info.treeDigest.toDigest, false⟩

-- `TryFrom<OutputDirectory> for DirectoryInfo`.
def tryFromOutputDirectory (outputDirectory : OutputDirectory) : Except Error DirectoryInfo := do
  let treeDigest ← optionErrTip outputDirectory.treeDigest "Expected tree_digest to exist in OutputDirectory"
  let treeDigest ← DigestInfo.tryFromDigest treeDigest
  pure ⟨outputDirectory.path, treeDigest⟩

end DirectoryInfo

section Conversions

variable (toTimestamp : SystemTime → Timestamp) (ofTimestamp : Timestamp → Except Error SystemTime)

-- `From<ExecutionMetadata> for ExecutedActionMetadata`.
def ExecutionMetadata.toProto (m : ExecutionMetadata) : ExecutedActionMetadata where
  worker := m.worker
  queuedTimestamp := some (toTimestamp m.queuedTimestamp)
  workerStartTimestamp := some (toTimestamp m.workerStartTimestamp)
  workerCompletedTimestamp := some (toTimestamp m.workerCompletedTimestamp)
  inputFetchStartTimestamp := some (toTimestamp m.inputFetchStartTimestamp)
  inputFetchCompletedTimestamp := some (toTimestamp m.inputFetchCompletedTimestamp)
  executionStartTimestamp := some (toTimestamp m.executionStartTimestamp)
  executionCompletedTimestamp := some (toTimestamp m.executionCompletedTimestamp)
  outputUploadStartTimestamp := some (toTimestamp m.outputUploadStartTimestamp)
  outputUploadCompletedTimestamp := some (toTimestamp m.outputUploadCompletedTimestamp)

-- One timestamp of `TryFrom<ExecutedActionMetadata> for ExecutionMetadata`: it must be there, and
-- convert.
def timestampField (timestamp : Option Timestamp) (name : String) : Except Error SystemTime := do
  let timestamp ← optionErrTip timestamp s!"Expected {name} to exist in ExecutedActionMetadata"
  ofTimestamp timestamp

-- `TryFrom<ExecutedActionMetadata> for ExecutionMetadata`.
def ExecutionMetadata.tryFromProto (eam : ExecutedActionMetadata) : Except Error ExecutionMetadata := do
  let queuedTimestamp ← timestampField ofTimestamp eam.queuedTimestamp "queued_timestamp"
  let workerStartTimestamp ← timestampField ofTimestamp eam.workerStartTimestamp "worker_start_timestamp"
  let workerCompletedTimestamp ←
    timestampField ofTimestamp eam.workerCompletedTimestamp "worker_completed_timestamp"
  let inputFetchStartTimestamp ←
    timestampField ofTimestamp eam.inputFetchStartTimestamp "input_fetch_start_timestamp"
  let inputFetchCompletedTimestamp ←
    timestampField ofTimestamp eam.inputFetchCompletedTimestamp "input_fetch_completed_timestamp"
  let executionStartTimestamp ←
    timestampField ofTimestamp eam.executionStartTimestamp "execution_start_timestamp"
  let executionCompletedTimestamp ←
    timestampField ofTimestamp eam.executionCompletedTimestamp "execution_completed_timestamp"
  let outputUploadStartTimestamp ←
    timestampField ofTimestamp eam.outputUploadStartTimestamp "output_upload_start_timestamp"
  let outputUploadCompletedTimestamp ←
    timestampField ofTimestamp eam.outputUploadCompletedTimestamp "output_upload_completed_timestamp"
  pure ⟨eam.worker, queuedTimestamp, workerStartTimestamp, workerCompletedTimestamp, inputFetchStartTimestamp,
    inputFetchCompletedTimestamp, executionStartTimestamp, executionCompletedTimestamp, outputUploadStartTimestamp,
    outputUploadCompletedTimestamp⟩

-- `From<ActionResult> for ProtoActionResult`: `output_symlinks` repeats the file symlinks and then
-- the directory symlinks.
def ActionResult.toProto (r : ActionResult) : Option ProtoActionResult := do
  let outputSymlinks := r.outputFileSymlinks ++ r.outputDirectorySymlinks
  let outputFiles ← r.outputFiles.mapM FileInfo.toOutputFile
  let outputFileSymlinks ← r.outputFileSymlinks.mapM SymlinkInfo.toOutputSymlink
  let outputSymlinks ← outputSymlinks.mapM SymlinkInfo.toOutputSymlink
  let outputDirectorySymlinks ← r.outputDirectorySymlinks.mapM SymlinkInfo.toOutputSymlink
  pure
    { outputFiles
      outputFileSymlinks
      outputSymlinks
      outputDirectories := r.outputFolders.map DirectoryInfo.toOutputDirectory
      outputDirectorySymlinks
      exitCode := r.exitCode
      stdoutDigest := some r.stdoutDigest.toDigest
      stderrDigest := some r.stderrDigest.toDigest
      executionMetadata := some (r.executionMetadata.toProto toTimestamp) }

-- `logs_from` of `to_execute_response`.
def logsFrom (serverLogs : List (String × DigestInfo)) : List (String × LogFile) :=
  serverLogs.map fun entry => (entry.1, ⟨some entry.2.toDigest, false⟩)

-- `to_execute_response`.
def toExecuteResponse (r : ActionResult) : Option ExecuteResponse := do
  let result ← r.toProto toTimestamp
  pure
    { result := some result
      cachedResult := false
      status := some ((r.error.map Error.toStatus).getD Status.default)
      serverLogs := logsFrom r.serverLogs
      message := r.message }

-- `From<ActionStage> for ExecuteResponse`.
def ActionStage.toExecuteResponse : ActionStage → Option ExecuteResponse
  | .unknown | .cacheCheck | .queued | .executing => some ExecuteResponse.default
  | .completed r => RunningActionsManager.toExecuteResponse toTimestamp r
  | .completedFromCache result => some ⟨some result, true, some Status.default, [], ""⟩

-- `HashMapExt::try_map`: each value converted, under its key.
def tryMapValues {κ β γ : Type} (f : β → Except Error γ) (entries : List (κ × β)) :
    Except Error (List (κ × γ)) :=
  entries.mapM fun entry => do
    let value ← f entry.2
    pure (entry.1, value)

-- The digest of a `LogFile`, as `TryFrom<ExecuteResponse> for ActionStage` reads it.
def LogFile.tryIntoDigest (logFile : LogFile) : Except Error DigestInfo := do
  let digest ← optionErrTip logFile.digest "Expected digest to be set on LogFile msg"
  DigestInfo.tryFromDigest digest

-- The `ActionResult` that `TryFrom<ExecuteResponse> for ActionStage` reads, its fields in the
-- order the source converts them.
def decodeActionResult (response : ExecuteResponse) : Except Error ActionResult := do
  let result ← optionErrTip response.result "Expected result to be set on ExecuteResponse msg"
  let outputFiles ← result.outputFiles.mapM FileInfo.tryFromOutputFile
  let outputDirectorySymlinks ← result.outputDirectorySymlinks.mapM SymlinkInfo.tryFromOutputSymlink
  let outputFileSymlinks ← result.outputFileSymlinks.mapM SymlinkInfo.tryFromOutputSymlink
  let outputFolders ← result.outputDirectories.mapM DirectoryInfo.tryFromOutputDirectory
  let stdoutDigest ← optionErrTip result.stdoutDigest "Expected stdout_digest to be set on ExecuteResponse msg"
  let stdoutDigest ← DigestInfo.tryFromDigest stdoutDigest
  let stderrDigest ← optionErrTip result.stderrDigest "Expected stderr_digest to be set on ExecuteResponse msg"
  let stderrDigest ← DigestInfo.tryFromDigest stderrDigest
  let executionMetadata ←
    optionErrTip result.executionMetadata "Expected execution_metadata to be set on ExecuteResponse msg"
  let executionMetadata ← ExecutionMetadata.tryFromProto ofTimestamp executionMetadata
  let serverLogs ← tryMapValues LogFile.tryIntoDigest response.serverLogs
  pure
    { outputFiles, outputFolders, outputDirectorySymlinks, outputFileSymlinks, exitCode := result.exitCode,
      stdoutDigest, stderrDigest, executionMetadata, serverLogs,
      -- a status of code 0 is no error
      error := response.status.bind fun status => if status.code = 0 then none else some status.toError
      message := response.message }

-- `TryFrom<ExecuteResponse> for ActionStage`; a cached result goes back to its proto form.
def ActionStage.tryFromExecuteResponse (response : ExecuteResponse) : Option (Except Error ActionStage) :=
  match decodeActionResult ofTimestamp response with
  | .error e => some (.error e)
  | .ok actionResult =>
    if response.cachedResult then
      (actionResult.toProto toTimestamp).map fun result => .ok (.completedFromCache result)
    else some (.ok (.completed actionResult))

end Conversions

/-! ## What the scheduler receives -/

-- A name that is a path.
def NameOrPath.isPath : NameOrPath → Bool
  | .path _ => true
  | .name _ => false

-- An `ActionResult` whose proto form is made without a panic: every output file and symlink is
-- named by its path.
structure ActionResult.NamedByPath (r : ActionResult) : Prop where
  files : ∀ info ∈ r.outputFiles, info.nameOrPath.isPath
  fileSymlinks : ∀ info ∈ r.outputFileSymlinks, info.nameOrPath.isPath
  directorySymlinks : ∀ info ∈ r.outputDirectorySymlinks, info.nameOrPath.isPath

-- An `ActionResult` that its proto form carries whole: named by paths, and every digest one that a
-- `Digest` carries.
structure ActionResult.Sendable (r : ActionResult) : Prop extends ActionResult.NamedByPath r where
  files_valid : ∀ info ∈ r.outputFiles, info.digest.Valid
  folders_valid : ∀ info ∈ r.outputFolders, info.treeDigest.Valid
  stdout_valid : r.stdoutDigest.Valid
  stderr_valid : r.stderrDigest.Valid
  serverLogs_valid : ∀ entry ∈ r.serverLogs, entry.2.Valid

theorem FileInfo.isSome_toOutputFile {info : FileInfo} (hpath : info.nameOrPath.isPath) :
    info.toOutputFile.isSome := by
  obtain ⟨nameOrPath, digest, isExecutable⟩ := info
  cases nameOrPath
  case path => rfl
  case name => cases hpath

theorem SymlinkInfo.isSome_toOutputSymlink {info : SymlinkInfo} (hpath : info.nameOrPath.isPath) :
    info.toOutputSymlink.isSome := by
  obtain ⟨nameOrPath, target⟩ := info
  cases nameOrPath
  case path => rfl
  case name => cases hpath

theorem FileInfo.toOutputFile_inverse {info : FileInfo} (hpath : info.nameOrPath.isPath) (hd : info.digest.Valid) :
    ∃ outputFile, info.toOutputFile = some outputFile ∧ tryFromOutputFile outputFile = .ok info := by
  obtain ⟨nameOrPath, digest, isExecutable⟩ := info
  cases nameOrPath
  case path path =>
    refine ⟨_, rfl, ?_⟩
    simp only [tryFromOutputFile, optionErrTip, ok_bind, DigestInfo.tryFromDigest_toDigest hd]
    rfl
  case name => cases hpath

theorem SymlinkInfo.toOutputSymlink_inverse {info : SymlinkInfo} (hpath : info.nameOrPath.isPath) :
    ∃ outputSymlink, info.toOutputSymlink = some outputSymlink ∧ tryFromOutputSymlink outputSymlink = .ok info := by
  obtain ⟨nameOrPath, target⟩ := info
  cases nameOrPath
  case path path => exact ⟨_, rfl, rfl⟩
  case name => cases hpath

theorem DirectoryInfo.tryFromOutputDirectory_toOutputDirectory {info : DirectoryInfo} (hd : info.treeDigest.Valid) :
    tryFromOutputDirectory info.toOutputDirectory = .ok info := by
  simp only [tryFromOutputDirectory, toOutputDirectory, optionErrTip, ok_bind, DigestInfo.tryFromDigest_toDigest hd]
  rfl

theorem tryMapValues_logsFrom {serverLogs : List (String × DigestInfo)}
    (hvalid : ∀ entry ∈ serverLogs, entry.2.Valid) :
    tryMapValues LogFile.tryIntoDigest (logsFrom serverLogs) = .ok serverLogs := by
  refine mapM_map_of_inverse fun entry hentry => ?_
  simp only [LogFile.tryIntoDigest, optionErrTip, ok_bind, DigestInfo.tryFromDigest_toDigest (hvalid entry hentry)]
  rfl

section Received

variable (toTimestamp : SystemTime → Timestamp) (ofTimestamp : Timestamp → Except Error SystemTime)

theorem ActionResult.toProto_eq {r : ActionResult} (h : r.NamedByPath) :
    r.toProto toTimestamp = some
      { outputFiles := r.outputFiles.filterMap FileInfo.toOutputFile
        outputFileSymlinks := r.outputFileSymlinks.filterMap SymlinkInfo.toOutputSymlink
        outputSymlinks := (r.outputFileSymlinks ++ r.outputDirectorySymlinks).filterMap SymlinkInfo.toOutputSymlink
        outputDirectories := r.outputFolders.map DirectoryInfo.toOutputDirectory
        outputDirectorySymlinks := r.outputDirectorySymlinks.filterMap SymlinkInfo.toOutputSymlink
        exitCode := r.exitCode
        stdoutDigest := some r.stdoutDigest.toDigest
        stderrDigest := some r.stderrDigest.toDigest
        executionMetadata := some (r.executionMetadata.toProto toTimestamp) } := by
  have hfiles := mapM_eq_some_filterMap fun info hinfo => FileInfo.isSome_toOutputFile (h.files info hinfo)
  have hfileSymlinks := mapM_eq_some_filterMap fun info hinfo =>
    SymlinkInfo.isSome_toOutputSymlink (h.fileSymlinks info hinfo)
  have hdirectorySymlinks := mapM_eq_some_filterMap fun info hinfo =>
    SymlinkInfo.isSome_toOutputSymlink (h.directorySymlinks info hinfo)
  have hsymlinks : ((r.outputFileSymlinks ++ r.outputDirectorySymlinks).mapM SymlinkInfo.toOutputSymlink) =
      some ((r.outputFileSymlinks ++ r.outputDirectorySymlinks).filterMap SymlinkInfo.toOutputSymlink) := by
    refine mapM_eq_some_filterMap fun info hinfo => ?_
    rcases List.mem_append.mp hinfo with hinfo | hinfo
    case inl => exact SymlinkInfo.isSome_toOutputSymlink (h.fileSymlinks info hinfo)
    case inr => exact SymlinkInfo.isSome_toOutputSymlink (h.directorySymlinks info hinfo)
  rw [ActionResult.toProto, hfiles, hfileSymlinks, hsymlinks, hdirectorySymlinks]
  rfl

section Roundtrip

variable (hts : ∀ t, ofTimestamp (toTimestamp t) = .ok t)
include hts

theorem ExecutionMetadata.tryFromProto_toProto (m : ExecutionMetadata) :
    ExecutionMetadata.tryFromProto ofTimestamp (m.toProto toTimestamp) = .ok m := by
  simp only [tryFromProto, toProto, timestampField, optionErrTip, ok_bind, hts]
  rfl

theorem decodeActionResult_toExecuteResponse {r : ActionResult} (hr : r.Sendable) {response : ExecuteResponse}
    (h : toExecuteResponse toTimestamp r = some response) :
    decodeActionResult ofTimestamp response = .ok { r with error := r.error.bind Error.throughStatus } ∧
      response.cachedResult = false := by
  rw [toExecuteResponse, ActionResult.toProto_eq toTimestamp hr.toNamedByPath] at h
  cases h
  refine ⟨?_, rfl⟩
  have hfiles := mapM_filterMap_of_inverse fun info hinfo =>
    FileInfo.toOutputFile_inverse (hr.files info hinfo) (hr.files_valid info hinfo)
  have hfileSymlinks := mapM_filterMap_of_inverse fun info hinfo =>
    SymlinkInfo.toOutputSymlink_inverse (hr.fileSymlinks info hinfo)
  have hdirectorySymlinks := mapM_filterMap_of_inverse fun info hinfo =>
    SymlinkInfo.toOutputSymlink_inverse (hr.directorySymlinks info hinfo)
  have hfolders := mapM_map_of_inverse fun info hinfo =>
    DirectoryInfo.tryFromOutputDirectory_toOutputDirectory (hr.folders_valid info hinfo)
  have hlogs := tryMapValues_logsFrom fun entry hentry => hr.serverLogs_valid entry hentry
  simp only [decodeActionResult, optionErrTip, ok_bind, hfiles, hfileSymlinks, hdirectorySymlinks, hfolders, hlogs,
    DigestInfo.tryFromDigest_toDigest hr.stdout_valid, DigestInfo.tryFromDigest_toDigest hr.stderr_valid,
    ExecutionMetadata.tryFromProto_toProto toTimestamp ofTimestamp hts, status_bind_toError]
  rfl

theorem scheduler_receives_the_result_the_worker_sends {r : ActionResult} (hr : r.Sendable) :
    ∃ response, toExecuteResponse toTimestamp r = some response ∧
      ActionStage.tryFromExecuteResponse toTimestamp ofTimestamp response =
        some (.ok (.completed { r with error := r.error.bind Error.throughStatus })) := by
  obtain ⟨response, hresponse⟩ : ∃ response, toExecuteResponse toTimestamp r = some response := by
    rw [toExecuteResponse, ActionResult.toProto_eq toTimestamp hr.toNamedByPath]
    exact ⟨_, rfl⟩
  obtain ⟨hdecode, hcached⟩ := decodeActionResult_toExecuteResponse toTimestamp ofTimestamp hts hr hresponse
  refine ⟨response, hresponse, ?_⟩
  rw [ActionStage.tryFromExecuteResponse, hdecode, hcached]
  rfl

end Roundtrip

-- A result with a file, a directory, a file symlink, a server log and an error of two messages,
-- which come back joined.
theorem scheduler_receives_the_result_the_worker_sends_of_failed_run :
    (∀ t : SystemTime, (.ok (Timestamp.mk t 0).seconds.toNat : Except Error SystemTime) = .ok t) ∧
      ActionResult.Sendable
        ⟨[⟨.path "a", ⟨1, 1⟩, false⟩], [⟨"d", ⟨7, 0⟩⟩], [], [⟨.path "l", "a"⟩], 1, ⟨2, 3⟩, ⟨4, 5⟩,
          ⟨"worker", 0, 0, 3, 0, 0, 0, 0, 1, 2⟩, [("log", ⟨6, 7⟩)], some ⟨.internal, ["a", "b"]⟩, ""⟩ ∧
      ∃ response, toExecuteResponse (fun t => ⟨t, 0⟩)
          ⟨[⟨.path "a", ⟨1, 1⟩, false⟩], [⟨"d", ⟨7, 0⟩⟩], [], [⟨.path "l", "a"⟩], 1, ⟨2, 3⟩, ⟨4, 5⟩,
            ⟨"worker", 0, 0, 3, 0, 0, 0, 0, 1, 2⟩, [("log", ⟨6, 7⟩)], some ⟨.internal, ["a", "b"]⟩, ""⟩ =
          some response ∧
        ActionStage.tryFromExecuteResponse (fun t => ⟨t, 0⟩) (fun ts => .ok ts.seconds.toNat) response =
          some (.ok (.completed
            ⟨[⟨.path "a", ⟨1, 1⟩, false⟩], [⟨"d", ⟨7, 0⟩⟩], [], [⟨.path "l", "a"⟩], 1, ⟨2, 3⟩, ⟨4, 5⟩,
              ⟨"worker", 0, 0, 3, 0, 0, 0, 0, 1, 2⟩, [("log", ⟨6, 7⟩)], some ⟨.internal, ["a : b"]⟩, ""⟩)) := by
  have hsendable : ActionResult.Sendable
      ⟨[⟨.path "a", ⟨1, 1⟩, false⟩], [⟨"d", ⟨7, 0⟩⟩], [], [⟨.path "l", "a"⟩], 1, ⟨2, 3⟩, ⟨4, 5⟩,
        ⟨"worker", 0, 0, 3, 0, 0, 0, 0, 1, 2⟩, [("log", ⟨6, 7⟩)], some ⟨.internal, ["a", "b"]⟩, ""⟩ :=
    ⟨⟨by decide, by decide, by decide⟩, by decide, by decide, by decide, by decide, by decide⟩
  exact ⟨fun _ => rfl, hsendable, scheduler_receives_the_result_the_worker_sends (fun t => ⟨t, 0⟩)
    (fun ts => .ok ts.seconds.toNat) (fun _ => rfl) hsendable⟩

end Received

/-! ## The results a worker builds -/

theorem OutputType.isPath_of_namedAs {y : OutputType} {entry : String} (h : y.NamedAs entry) :
    (∀ info, y.file? = some info → info.nameOrPath.isPath) ∧
      (∀ info, y.fileSymlink? = some info → info.nameOrPath.isPath) ∧
      (∀ info, y.directorySymlink? = some info → info.nameOrPath.isPath) := by
  cases y <;> refine ⟨fun info hinfo => ?_, fun info hinfo => ?_, fun info hinfo => ?_⟩ <;> cases hinfo <;>
    simp only [OutputType.NamedAs] at h <;> simp only [h, NameOrPath.isPath]

section Built

variable {schedules : String → Schedule} {digestOf : ProtoDirectory → DigestInfo}
  {treeDigestOf : ProtoTree → DigestInfo} {digestOfBytes : List UInt8 → DigestInfo}
  {workDirectory : String} {fs : String → OutputEntry}

theorem innerUploadResults_namedByPath {order : List Nat} {command : UploadCommand}
    {executionResult : ExecutionResult} {state : UploadState} {r : ActionResult}
    (h : innerUploadResults schedules digestOf treeDigestOf digestOfBytes workDirectory fs order command
      executionResult state = .ok r) : r.NamedByPath := by
  obtain ⟨outputs, houtputs, hr⟩ := bind_eq_ok h
  cases hr
  have hnamed : ∀ y ∈ outputs, ∃ entry, y.NamedAs entry := fun y hy => by
    obtain ⟨entry, -, hentry⟩ := List.mem_map.mp (mem_tryCollect (mapError_eq_ok houtputs) hy)
    exact ⟨entry, (uploadOutput_eq_ok digestOf treeDigestOf workDirectory hentry).2⟩
  refine ⟨fun info hinfo => ?_, fun info hinfo => ?_, fun info hinfo => ?_⟩
  · obtain ⟨y, hy, hpick⟩ := List.mem_filterMap.mp ((perm_sortBy _).subset hinfo)
    obtain ⟨entry, hentry⟩ := hnamed y hy
    exact (OutputType.isPath_of_namedAs hentry).1 info hpick
  · obtain ⟨y, hy, hpick⟩ := List.mem_filterMap.mp ((perm_sortBy _).subset hinfo)
    obtain ⟨entry, hentry⟩ := hnamed y hy
    exact (OutputType.isPath_of_namedAs hentry).2.1 info hpick
  · obtain ⟨y, hy, hpick⟩ := List.mem_filterMap.mp ((perm_sortBy _).subset hinfo)
    obtain ⟨entry, hentry⟩ := hnamed y hy
    exact (OutputType.isPath_of_namedAs hentry).2.2 info hpick

variable (schedules digestOf treeDigestOf digestOfBytes workDirectory fs)

theorem uploaded_results_convert_without_panic (toTimestamp : SystemTime → Timestamp) (order : List Nat)
    (command : UploadCommand) (executionResult : ExecutionResult) (state : UploadState) (r : ActionResult)
    (h : innerUploadResults schedules digestOf treeDigestOf digestOfBytes workDirectory fs order command
      executionResult state = .ok r) :
    (toExecuteResponse toTimestamp r).isSome := by
  rw [toExecuteResponse, ActionResult.toProto_eq toTimestamp (innerUploadResults_namedByPath h)]
  rfl

-- The four outputs of `ranOutputs`, finished out of order.
theorem uploaded_results_convert_without_panic_of_four_outputs :
    innerUploadResults (fun _ => Schedule.inOrder) (fun _ => ⟨0, 0⟩) (fun _ => ⟨7, 0⟩) (fun b => ⟨b.length, 0⟩)
        "/work" ranOutputs [3, 1, 0, 2] ranCommand ⟨[], [], 0⟩ ranState =
      .ok ⟨[⟨.path "a", ⟨1, 1⟩, false⟩], [⟨"d", ⟨7, 0⟩⟩], [], [⟨.path "l", "a"⟩], 0, ⟨0, 0⟩, ⟨0, 0⟩,
        ⟨"", 0, 0, 3, 0, 0, 0, 0, 1, 2⟩, [], none, ""⟩ ∧
    (toExecuteResponse (fun t => ⟨t, 0⟩)
      ⟨[⟨.path "a", ⟨1, 1⟩, false⟩], [⟨"d", ⟨7, 0⟩⟩], [], [⟨.path "l", "a"⟩], 0, ⟨0, 0⟩, ⟨0, 0⟩,
        ⟨"", 0, 0, 3, 0, 0, 0, 0, 1, 2⟩, [], none, ""⟩).isSome := by
  have hresult : innerUploadResults (fun _ => Schedule.inOrder) (fun _ => ⟨0, 0⟩) (fun _ => ⟨7, 0⟩)
      (fun b => ⟨b.length, 0⟩) "/work" ranOutputs [3, 1, 0, 2] ranCommand ⟨[], [], 0⟩ ranState =
      .ok ⟨[⟨.path "a", ⟨1, 1⟩, false⟩], [⟨"d", ⟨7, 0⟩⟩], [], [⟨.path "l", "a"⟩], 0, ⟨0, 0⟩, ⟨0, 0⟩,
        ⟨"", 0, 0, 3, 0, 0, 0, 0, 1, 2⟩, [], none, ""⟩ := by
    decide +kernel
  exact ⟨hresult, uploaded_results_convert_without_panic _ _ _ _ _ _ _ _ _ _ _ _ hresult⟩

end Built

end NativeLink.RunningActionsManager
