import NativeLink.Store.FilesystemStore
import NativeLink.Util.DigestInfo

-- The names of the content files of `nativelink-store/src/filesystem_store.rs`: a key is stored
-- under its text, in the string folder for a text key and in the digest folder for a digest, and
-- `key_from_file` reads the key back from the name when the store starts.

namespace NativeLink

namespace FilesystemStore

def strFolder : String := "s"
def digestFolder : String := "d"

-- `to_full_path_from_key`: a digest is stored under its text form.
def toFullPathFromKey (folder : String) : StoreTrait.StoreKey → Except Error String
  | .str s => .ok (folder ++ "/" ++ strFolder ++ "/" ++ s)
  | .digest d => (DigestInfo.asStr d).map fun name => folder ++ "/" ++ digestFolder ++ "/" ++ name

-- `digest_from_filename`.
def digestFromFilename (fileName : List Char) : Except Error DigestInfo :=
  match Text.splitOnce '-' fileName with
  | none => .error ⟨.internal, [""]⟩
  | some (hash, size) =>
    match Decimal.parseSigned i64Max size with
    | .error kind => .error (makeInputErr kind.description)
    | .ok sizeBytes => DigestInfo.tryNew hash sizeBytes

-- `key_from_file`.
def keyFromFile (fileName : String) : FileType → Except Error StoreTrait.StoreKey
  | .string => .ok (.str fileName)
  | .digest => (digestFromFilename fileName.toList).map .digest

theorem digestFromFilename_text {d : DigestInfo} (hhash : d.packedHash < 2 ^ 256) (hsize : d.sizeBytes ≤ i64Max) :
    digestFromFilename d.text = .ok d := by
  rw [digestFromFilename, DigestInfo.splitOnce_text]
  dsimp only
  rw [Decimal.parseSigned_toDigits hsize]
  exact DigestInfo.tryNew_toHex hhash hsize

end FilesystemStore

namespace DigestInfo

-- The text of a digest names it everywhere it is read back: by the `Deserialize` visitor, by
-- `digest_from_filename` and `key_from_file` from the name of its content file, and the visitor's
-- own results print and parse to themselves.
theorem text_form_round_trips :
    (∀ d : DigestInfo, d.packedHash < 2 ^ 256 → d.sizeBytes ≤ i64Max →
      asStr d = .ok (String.ofList d.text) ∧ visitStr d.text = .ok d ∧
        FilesystemStore.digestFromFilename d.text = .ok d ∧
        FilesystemStore.keyFromFile (String.ofList d.text) .digest = .ok (.digest d) ∧
        ∀ folder, FilesystemStore.toFullPathFromKey folder (.digest d) =
          .ok (folder ++ "/" ++ FilesystemStore.digestFolder ++ "/" ++ String.ofList d.text)) ∧
    (∀ (s : List Char) (d : DigestInfo), visitStr s = .ok d →
      ∃ text, asStr d = .ok text ∧ visitStr text.toList = .ok d) := by
  constructor
  case left =>
    intro d hhash hsize
    have hu64 := le_u64Max_of_le_i64Max hsize
    have hfile := FilesystemStore.digestFromFilename_text hhash hsize
    refine ⟨asStr_eq hu64, visitStr_text hhash hsize, hfile, ?_, fun folder => ?_⟩
    case refine_1 => simp [FilesystemStore.keyFromFile, String.toList_ofList, hfile, Except.map]
    case refine_2 => simp [FilesystemStore.toFullPathFromKey, asStr_eq hu64, Except.map]
  case right =>
    intro s d hvisit
    obtain ⟨hhash, hsize⟩ := visitStr_bounds hvisit
    have hu64 := le_u64Max_of_le_i64Max hsize
    exact ⟨String.ofList d.text, asStr_eq hu64, by rw [String.toList_ofList]; exact visitStr_text hhash hsize⟩

theorem text_form_round_trips_of_five_bytes :
    ((⟨0xab, 5⟩ : DigestInfo).packedHash < 2 ^ 256 ∧ (⟨0xab, 5⟩ : DigestInfo).sizeBytes ≤ i64Max) ∧
      visitStr (DigestInfo.text ⟨0xab, 5⟩) = .ok ⟨0xab, 5⟩ :=
  ⟨⟨by decide, by decide⟩, (text_form_round_trips.1 ⟨0xab, 5⟩ (by decide) (by decide)).2.1⟩

end DigestInfo

end NativeLink
