import NativeLink.Util.ResourceInfo

-- The instance-name rewrite of `nativelink-store/src/grpc_store.rs`: `get_read_request`,
-- `query_write_status` and the `WriteStateWrapper::poll_next` of every write parse the resource
-- name and print it again under the store's instance name when the client used another one. The
-- requests are their resource names; the rest of a message passes through unchanged.

namespace NativeLink.GrpcStore

open ResourceInfo

-- The rewrite the three share: parse, and print again under `instanceName` if it differs.
def rewriteInstanceName (instanceName : List Char) (isUpload : Bool) (resourceName : List Char) :
    Except Error (List Char) :=
  match ResourceInfo.new resourceName isUpload with
  | .error e => .error e
  | .ok r =>
    if r.instanceName ≠ instanceName then .ok (ResourceInfo.toString { r with instanceName := instanceName } isUpload)
    else .ok resourceName

-- `get_read_request`.
def getReadRequest (instanceName resourceName : List Char) : Except Error (List Char) :=
  rewriteInstanceName instanceName false resourceName

-- The request `query_write_status` sends.
def queryWriteStatusRequest (instanceName resourceName : List Char) : Except Error (List Char) :=
  rewriteInstanceName instanceName true resourceName

structure WriteRequest where
  resourceName : List Char
  writeOffset : Int
  finishWrite : Bool
  data : List UInt8
  deriving DecidableEq, Repr

-- The rewrite in `WriteStateWrapper::poll_next`: a message without a resource name passes, and a
-- name that does not parse becomes the stream's error. It is the `rewrite` that `WriteState.pollNext`
-- takes.
def rewriteWriteRequest (instanceName : List Char) (message : WriteRequest) : Except Error WriteRequest :=
  if message.resourceName.isEmpty then .ok message
  else (rewriteInstanceName instanceName true message.resourceName).map fun resourceName =>
    { message with resourceName := resourceName }

section Rewrite

variable {isUpload : Bool} {r : ResourceInfo}

theorem rewriteInstanceName_render (h : WellFormed isUpload r) (instanceName : List Char) :
    rewriteInstanceName instanceName isUpload (render isUpload r) =
      .ok (render isUpload { r with instanceName := instanceName }) := by
  rw [rewriteInstanceName, new_render h]
  dsimp only
  split
  case isTrue => rw [toString_eq_render (h.withInstanceName instanceName)]
  case isFalse hsame =>
    rw [not_not] at hsame
    rw [← hsame]

theorem rewriteWriteRequest_render (h : WellFormed true r) (instanceName : List Char) (message : WriteRequest)
    (hname : message.resourceName = render true r) :
    rewriteWriteRequest instanceName message =
      .ok { message with resourceName := render true { r with instanceName := instanceName } } := by
  have hne : message.resourceName.isEmpty = false := by
    rw [hname, List.isEmpty_eq_false_iff]
    exact render_ne_nil
  rw [rewriteWriteRequest, if_neg (by simp [hne]), hname, rewriteInstanceName_render h]
  rfl

end Rewrite

-- `ResourceInfo::new` and `to_string` invert each other on the names of the pattern, where the
-- metadata is one segment; every name the parser accepts without an empty segment has fields of
-- the pattern and prints to a name that parses back to them; and the store's rewrite keeps every
-- field but the instance name.
theorem resource_name_round_trip :
    (∀ (isUpload : Bool) (r : ResourceInfo), WellFormed isUpload r →
      ResourceInfo.new (render isUpload r) isUpload = .ok r ∧ ResourceInfo.toString r isUpload = render isUpload r) ∧
    (∀ (isUpload : Bool) (s : List Char) (r : ResourceInfo), ResourceInfo.new s isUpload = .ok r →
      r.hash ≠ [] → r.uuid ≠ some [] → r.optionalMetadata ≠ some [] →
      WellFormed isUpload r ∧ ResourceInfo.new (ResourceInfo.toString r isUpload) isUpload = .ok r) ∧
    (∀ (isUpload : Bool) (r : ResourceInfo) (instanceName : List Char), WellFormed isUpload r →
      ∃ resourceName, rewriteInstanceName instanceName isUpload (render isUpload r) = .ok resourceName ∧
        ResourceInfo.new resourceName isUpload = .ok { r with instanceName := instanceName }) := by
  refine ⟨fun isUpload r h => ⟨new_render h, toString_eq_render h⟩, ?_, ?_⟩
  case refine_1 =>
    intro isUpload s r hnew hhash huuid hmetadata
    have hwf := wellFormed_of_new hnew hhash huuid hmetadata
    exact ⟨hwf, by rw [toString_eq_render hwf]; exact new_render hwf⟩
  case refine_2 =>
    intro isUpload r instanceName h
    exact ⟨_, rewriteInstanceName_render h instanceName, new_render (h.withInstanceName instanceName)⟩

-- Metadata of two segments: the parse keeps the last one, and the name prints without the first.
theorem resource_name_metadata_keeps_last_segment :
    ResourceInfo.new "blobs/hash/12345/a/b".toList false =
        .ok ⟨[], none, none, none, "hash".toList, "12345".toList, 12345, some "b".toList⟩ ∧
      ResourceInfo.toString ⟨[], none, none, none, "hash".toList, "12345".toList, 12345, some "b".toList⟩ false ≠
        "blobs/hash/12345/a/b".toList := by
  decide

end NativeLink.GrpcStore
