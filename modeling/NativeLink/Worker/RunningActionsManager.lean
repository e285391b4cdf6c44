import NativeLink.Lib.Invariant
import NativeLink.Lib.Path
import NativeLink.Util.StoreTrait

-- Model of how `nativelink-worker/src/running_actions_manager.rs` lays out an action's work
-- directory: `download_to_directory` walks the input root from the CAS, hard-linking each file,
-- creating each directory and placing each symlink at `format!("{}/{}", current_directory, name)`,
-- and `RunningActionImpl::inner_prepare_action` then creates the parent directory of every output
-- path. The program's state is the log of the file-system calls it made, each by the path it
-- creates or writes. The walk's futures run one after the other in the order they were pushed, and
-- `fuel` bounds how many levels of directories it descends; the CAS lookup of a directory is the
-- function `cas`, and the fetch of a file into the fast store, which must succeed before the file is
-- linked, is `populate`.

namespace NativeLink.RunningActionsManager

open EStateM Path

structure FileNode where
  name : String
  digest : Option DigestInfo
  isExecutable : Bool

structure DirectoryNode where
  name : String
  digest : Option DigestInfo

structure SymlinkNode where
  name : String
  target : String

-- `ProtoDirectory`, without the node properties of its files.
structure ProtoDirectory where
  files : List FileNode
  directories : List DirectoryNode
  symlinks : List SymlinkNode

-- `ProtoCommand`, by the fields that lay out the work directory.
structure Command where
  workingDirectory : String
  outputFiles : List String
  outputPaths : List String

-- A call on the file system, by the path it creates or writes.
inductive FsOp
  | createDir (path : String)
  | hardLink (dest : String)
  | setPermissions (dest : String) (mode : Nat)
  | symlink (target dest : String)
  | createDirAll (path : List (List Char))
  deriving DecidableEq

-- Where a call lands, resolved from the root.
def FsOp.location : FsOp → List (List Char)
  | .createDir path => resolve path
  | .hardLink dest => resolve dest
  | .setPermissions dest _ => resolve dest
  | .symlink _ dest => resolve dest
  | .createDirAll path => resolveComponents path

abbrev Program := EStateM Error (List FsOp)

def call (op : FsOp) : Program Unit :=
  modify (· ++ [op])

-- The digest a node must have, as `node.digest.err_tip(|| msg)?` requires it.
def requireDigest (msg : String) : Option DigestInfo → Except Error DigestInfo
  | some digest => .ok digest
  | none => .error (Error.new .internal msg)

-- A loop of `download_to_directory` over the nodes of one kind, before any future runs: the
-- nodes with their digests, or the error of the first node without one.
def withDigests {α : Type} (digestOf : α → Option DigestInfo) (msg : String) :
    List α → Except Error (List (α × DigestInfo))
  | [] => .ok []
  | a :: as => do
    let digest ← requireDigest msg (digestOf a)
    let rest ← withDigests digestOf msg as
    pure ((a, digest) :: rest)

variable (cas : DigestInfo → Except Error ProtoDirectory) (populate : DigestInfo → Except Error Unit)

-- The future of one file: once the file is in the fast store, it is hard-linked to `dest`, which
-- is then made executable if the node says so (`0o444 | 0o111`).
def placeFile (dest : String) (isExecutable : Bool) (digest : DigestInfo) : Program Unit := do
  MonadExcept.ofExcept (populate digest)
  call (.hardLink dest)
  if isExecutable then call (.setPermissions dest 0o555)

-- `download_to_directory`.
def downloadToDirectory : Nat → DigestInfo → String → Program Unit
  | 0, _, _ => pure ()
  | fuel + 1, digest, currentDirectory => do
    let directory ← MonadExcept.ofExcept ((cas digest).mapError (·.append "Converting digest to Directory"))
    let files ← MonadExcept.ofExcept
      (withDigests (·.digest) "Expected Digest to exist in Directory::file::digest" directory.files)
    let directories ← MonadExcept.ofExcept
      (withDigests (·.digest) "Expected Digest to exist in Directory::directories::digest" directory.directories)
    files.forM fun (file, digest) => placeFile populate (currentDirectory ++ "/" ++ file.name) file.isExecutable digest
    directories.forM fun (directory, digest) => do
      let newDirectoryPath := currentDirectory ++ "/" ++ directory.name
      call (.createDir newDirectoryPath)
      (downloadToDirectory fuel digest newDirectoryPath).adaptExcept
        (·.append s!"in download_to_directory : {newDirectoryPath}")
    directory.symlinks.forM fun symlinkNode =>
      call (.symlink symlinkNode.target (currentDirectory ++ "/" ++ symlinkNode.name))

-- The closure `prepare_output_directories` of `inner_prepare_action`.
def prepareOutputDirectories (workDirectory : String) (command : Command) (outputFile : String) :
    Program Unit :=
  let fullOutputPath :=
    if command.workingDirectory.isEmpty then workDirectory ++ "/" ++ outputFile
    else workDirectory ++ "/" ++ command.workingDirectory ++ "/" ++ outputFile
  match parent fullOutputPath with
  | none => throw (Error.new .internal s!"Parent path for {fullOutputPath} has no parent")
  | some fullParentPath => call (.createDirAll fullParentPath)

-- `RunningActionImpl::inner_prepare_action`, for the action's work directory and input root, and
-- its command as read from the CAS.
def innerPrepareAction (fuel : Nat) (workDirectory : String) (inputRootDigest : DigestInfo)
    (command : Except Error Command) : Program Command := do
  let command ← MonadExcept.ofExcept (command.mapError (·.append "Converting command_digest to Command"))
  call (.createDir workDirectory)
  downloadToDirectory cas populate fuel inputRootDigest workDirectory
  command.outputFiles.forM (prepareOutputDirectories workDirectory command)
  command.outputPaths.forM (prepareOutputDirectories workDirectory command)
  pure command

-- Every name of a directory is one component going down.
def ProtoDirectory.NamesSimple (directory : ProtoDirectory) : Prop :=
  (∀ file ∈ directory.files, SimpleName file.name) ∧
    (∀ dir ∈ directory.directories, SimpleName dir.name) ∧
    ∀ symlinkNode ∈ directory.symlinks, SimpleName symlinkNode.name

-- The paths of a command go down from where they start, and each output names an entry.
def Command.StaysBelow (command : Command) : Prop :=
  Path.StaysBelow command.workingDirectory ∧
    ∀ outputFile ∈ command.outputFiles ++ command.outputPaths,
      Path.StaysBelow outputFile ∧ components outputFile ≠ []

-- Every call of the log lands in the work directory, its paths resolved without symlinks.
def Confined (workDirectory : String) (log : List FsOp) : Prop :=
  ∀ op ∈ log, resolve workDirectory <+: op.location

instance (workDirectory : String) (log : List FsOp) : Decidable (Confined workDirectory log) :=
  inferInstanceAs (Decidable (∀ op ∈ log, _))

theorem mem_withDigests {α : Type} {digestOf : α → Option DigestInfo} {msg : String} :
    ∀ {l : List α} {r : List (α × DigestInfo)}, withDigests digestOf msg l = .ok r → ∀ p ∈ r, p.1 ∈ l
  | [], r, h => by
    cases h
    intro p hp
    cases hp
  | a :: as, r, h => by
    cases hd : requireDigest msg (digestOf a)
    case error e => simp [withDigests, hd] at h; cases h
    case ok digest =>
      cases hrest : withDigests digestOf msg as
      case error e => simp [withDigests, hd, hrest] at h; cases h
      case ok rest =>
        simp only [withDigests, hd, hrest] at h
        cases h
        intro p hp
        cases hp
        case head => exact List.mem_cons_self
        case tail hp => exact List.mem_cons_of_mem a (mem_withDigests hrest p hp)

section Confinement

variable {cas populate} {workDirectory : String}

theorem call_confined {op : FsOp} (h : resolve workDirectory <+: op.location) :
    Preserves (Confined workDirectory) (fun _ => False) (call op) := by
  apply Preserves.modify
  intro log hlog op' hop'
  cases List.mem_append.mp hop'
  case inl hmem => exact hlog op' hmem
  case inr hmem => exact List.mem_singleton.mp hmem ▸ h

theorem placeFile_confined {dest : String} {isExecutable : Bool} {digest : DigestInfo}
    (h : resolve workDirectory <+: resolve dest) :
    Preserves (Confined workDirectory) (fun _ => False) (placeFile populate dest isExecutable digest) :=
  (Preserves.ofExcept fun _ _ => not_false).bind fun _ =>
    (call_confined h).bind fun _ => Preserves.ite (fun _ => call_confined h) fun _ => Preserves.pure _

theorem downloadToDirectory_confined
    (hcas : ∀ digest directory, cas digest = .ok directory → directory.NamesSimple) :
    ∀ fuel digest currentDirectory, resolve workDirectory <+: resolve currentDirectory →
      Preserves (Confined workDirectory) (fun _ => False) (downloadToDirectory cas populate fuel digest currentDirectory) := by
  intro fuel
  induction fuel with
  | zero => intro _ _ _; exact Preserves.pure _
  | succ fuel ih =>
    intro digest currentDirectory hcur
    have hbelow : ∀ name, SimpleName name →
        resolve workDirectory <+: resolve (currentDirectory ++ "/" ++ name) :=
      fun name hname => hcur.trans (prefix_resolve_join hname.staysBelow)
    apply Preserves.ofExcept_bind (fun _ _ => not_false)
    intro directory hdirectory
    have hnames := hcas digest directory (Except.eq_ok_of_mapError hdirectory)
    apply Preserves.ofExcept_bind (fun _ _ => not_false)
    intro files hfiles
    apply Preserves.ofExcept_bind (fun _ _ => not_false)
    intro directories hdirectories
    refine (Preserves.forM _ ?_).bind fun _ => (Preserves.forM _ ?_).bind fun _ => Preserves.forM _ ?_
    case refine_1 =>
      intro ⟨file, digest⟩ hmem
      exact placeFile_confined (hbelow _ (hnames.1 _ (mem_withDigests hfiles _ hmem)))
    case refine_2 =>
      intro ⟨dir, digest⟩ hmem
      have hname := hnames.2.1 _ (mem_withDigests hdirectories _ hmem)
      exact (call_confined (hbelow _ hname)).bind fun _ =>
        (ih digest _ (hbelow _ hname)).adaptExcept fun _ h => h
    case refine_3 =>
      intro symlinkNode hmem
      exact call_confined (hbelow _ (hnames.2.2 _ hmem))

theorem prepareOutputDirectories_confined {command : Command} {outputFile : String}
    (hwd : Path.StaysBelow command.workingDirectory) (hout : Path.StaysBelow outputFile)
    (hne : components outputFile ≠ []) :
    Preserves (Confined workDirectory) (fun _ => False) (prepareOutputDirectories workDirectory command outputFile) := by
  have hjoin : ∀ dir, resolve workDirectory <+: resolve dir → ∀ fullOutputPath, fullOutputPath = dir ++ "/" ++ outputFile →
      Preserves (Confined workDirectory) (fun _ => False)
        (match parent fullOutputPath with
          | none => throw (Error.new .internal s!"Parent path for {fullOutputPath} has no parent")
          | some fullParentPath => call (.createDirAll fullParentPath)) := by
    intro dir hdir _ hfull
    subst hfull
    obtain ⟨cs, hcs, hpre⟩ := parent_join_within dir hout hne
    rw [hcs]
    exact call_confined (hdir.trans hpre)
  cases hempty : command.workingDirectory.isEmpty
  case true =>
    simp only [prepareOutputDirectories, hempty, if_true]
    exact hjoin workDirectory List.prefix_rfl _ rfl
  case false =>
    simp only [prepareOutputDirectories, hempty, Bool.false_eq_true, if_false]
    exact hjoin _ (prefix_resolve_join hwd) _ rfl

theorem innerPrepareAction_confined {fuel : Nat} {inputRootDigest : DigestInfo} {command : Except Error Command}
    (hcas : ∀ digest directory, cas digest = .ok directory → directory.NamesSimple)
    (hcommand : ∀ c, command = .ok c → c.StaysBelow) :
    Preserves (Confined workDirectory) (fun _ => False)
      (innerPrepareAction cas populate fuel workDirectory inputRootDigest command) := by
  apply Preserves.ofExcept_bind (fun _ _ => not_false)
  intro c hc
  obtain ⟨hwd, hout⟩ := hcommand c (Except.eq_ok_of_mapError hc)
  have houtput : ∀ outputFile ∈ c.outputFiles ++ c.outputPaths,
      Preserves (Confined workDirectory) (fun _ => False) (prepareOutputDirectories workDirectory c outputFile) :=
    fun outputFile hmem => prepareOutputDirectories_confined hwd (hout outputFile hmem).1 (hout outputFile hmem).2
  apply (call_confined List.prefix_rfl).bind
  intro _
  apply (downloadToDirectory_confined hcas fuel inputRootDigest workDirectory List.prefix_rfl).bind
  intro _
  apply (Preserves.forM _ fun f hf => houtput f (List.mem_append_left _ hf)).bind
  intro _
  exact (Preserves.forM _ fun f hf => houtput f (List.mem_append_right _ hf)).bind fun _ => Preserves.pure c

end Confinement

-- An input root holding a file named `../escape`, and a command with the output file `../out/x`,
-- prepared in `/work`: the file is linked at `/escape` and the directory `/out` is created, both
-- outside the work directory, as no name is checked.
theorem prepare_action_escapes_work_directory :
    ∃ log, (innerPrepareAction (fun _ => .ok ⟨[⟨"../escape", some ⟨1, 1⟩, false⟩], [], []⟩) (fun _ => .ok ()) 1
          "/work" ⟨0, 0⟩ (.ok ⟨"", ["../out/x"], []⟩)).run [] = .ok ⟨"", ["../out/x"], []⟩ log ∧
      log.map FsOp.location = [["work".toList], ["escape".toList], ["out".toList]] ∧
      ¬Confined "/work" log := by
  refine ⟨_, rfl, ?_, ?_⟩ <;> decide +kernel

end NativeLink.RunningActionsManager
