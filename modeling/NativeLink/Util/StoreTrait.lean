import Mathlib

-- What the stores share, from `nativelink-util/src/store_trait.rs`, `common.rs` and
-- `nativelink-error`: digests, the size announced for an upload, errors and how a call ends when
-- it does not return, and the part of a stored value that `get_part(key, writer, offset, length)`
-- is asked for.

namespace NativeLink

-- `DigestInfo`: the hash of a blob and its size.
structure DigestInfo where
  packedHash : Nat
  sizeBytes : Nat
  deriving DecidableEq, Repr

inductive UploadSizeInfo
  | exactSize (size : Nat)
  | maxSize (size : Nat)
  deriving DecidableEq, Repr

-- `nativelink_error::Code`.
inductive Code
  | ok | cancelled | unknown | invalidArgument | deadlineExceeded | notFound | alreadyExists
  | permissionDenied | resourceExhausted | failedPrecondition | aborted | outOfRange
  | unimplemented | internal | unavailable | dataLoss | unauthenticated
  deriving DecidableEq, Repr

-- `nativelink_error::Error`: a code and the messages, the first one given where the error is made
-- and one more for each `err_tip` it passes.
structure Error where
  code : Code
  messages : List String
  deriving DecidableEq, Repr

namespace Error

-- `Error::new`, which keeps no empty message; `make_err!(code, msg)` is this.
def new (code : Code) (msg : String) : Error :=
  ⟨code, if msg.isEmpty then [] else [msg]⟩

-- `Error::append`, and what `err_tip` adds to an error.
def append (e : Error) (msg : String) : Error :=
  { e with messages := e.messages ++ [msg] }

-- `Error::merge`: the other error's messages after a separator, under this error's code.
def merge (e other : Error) : Error :=
  { e with messages := e.messages ++ "---" :: other.messages }

end Error

-- `ResultExt::merge` of a result: its error, with the other's messages after it when both failed,
-- or the other result when it is not an error.
def ResultExt.merge {α β : Type} (self : Except Error α) (other : Except Error β) : Except Error β :=
  match self with
  | .error e =>
    match other with
    | .error otherErr => .error (e.merge otherErr)
    | .ok _ => .error e
  | .ok _ => other

-- `make_input_err!(msg)`.
def makeInputErr (msg : String) : Error :=
  Error.new .invalidArgument msg

-- An `Error` returned to the caller, or a panic of the task.
inductive Failure
  | error (msg : String)
  | panic (msg : String)
  deriving DecidableEq, Repr

def u64Max : Nat := 2 ^ 64 - 1

namespace StoreTrait

-- `StoreKey`: a key by its text or by its digest.
inductive StoreKey
  | str (s : String)
  | digest (digest : DigestInfo)
  deriving DecidableEq, Repr

end StoreTrait

-- `data[min(offset, len) .. min(offset + length, len)]`, with no `length` meaning to the end.
def slice (data : List UInt8) (offset : Nat) : Option Nat → List UInt8
  | some length => (data.drop offset).take length
  | none        => data.drop offset

-- `DropCloserWriteHalf::send` refuses an empty buffer, which would read as the EOF.
def writerSend (written data : List UInt8) : Except Failure (List UInt8) :=
  if data.isEmpty then throw (.error "Cannot send EOF in send(). Instead use send_eof()")
  else pure (written ++ data)

theorem writerSend_of_ne_nil {written data : List UInt8} (h : data ≠ []) :
    writerSend written data = pure (written ++ data) := by
  simp [writerSend, List.isEmpty_iff, h]

end NativeLink
