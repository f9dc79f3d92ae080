import FlatWeights.Checkpoint
import FlatWeights.Checkpoint.Element
import FlatWeights.Checkpoint.Header
import FlatWeights.Storage

/-!
Checkpoints in files. A checkpoint file is opened by reading its header; the tensors are decoded
when they are asked for, and their keys are gone through in increasing order.
-/

set_option autoImplicit false

namespace FlatWeights

/-- A checkpoint file with its header. -/
structure CheckpointFile where
  content : Bytes
  header : CheckpointHeader
deriving Repr

namespace CheckpointFile

/-- The content of a file at a path as a checkpoint file. -/
def ofContent (path : Path) (content : Bytes) : Except Stop CheckpointFile :=
  match CheckpointHeader.ofFile content with
  | .ok header => .ok ⟨content, header⟩
  | .error (.faulty fault) => .error (.failed (.storeOpen path (.badHeader fault)))
  | .error .overflow => .error .overflow

/-- Open the checkpoint file at a path. A directory can be opened, but neither mapped nor read. -/
def «open» {m : Type → Type} [Monad m] [FileSystem m] (path : Path) (useMmap : Bool) :
    Run m CheckpointFile := do
  match ← Run.always (FileSystem.open? path), useMmap with
  | some (.file content), _ => ExceptT.mk (pure (ofContent path content))
  | some .directory, true => Run.fail (.storeOpen path .cannotMapCheckpoint)
  | none, true => Run.fail (.storeOpen path .cannotOpenCheckpoint)
  | _, false => Run.fail (.storeOpen path .cannotReadCheckpoint)

/-- The bytes from `start` up to `stop`, if the file has them. -/
def bytes? (content : Bytes) (start stop : Nat) : Option Bytes :=
  if start ≤ stop ∧ stop ≤ content.length then some ((content.drop start).take (stop - start))
  else none

/-- The tensor that the header describes under a key. -/
def tensorOf (file : CheckpointFile) (key : String) (info : TensorInfo) :
    Except Stop RawTensor :=
  let fail (fault : TensorFault) : Except Stop RawTensor :=
    .error (.failed (.tensorRead key fault))
  let dataStart := CheckpointHeader.lengthWidth + file.header.length
  match Size.add? dataStart info.start, Size.add? dataStart info.stop with
  | some start, some stop =>
    match bytes? file.content start stop with
    | none => fail (.outOfRange start stop file.content.length)
    | some bytes =>
      match (Size.product? info.shape).bind (Size.mul? · info.dtype.width) with
      | none => .error .overflow
      | some needed =>
        if bytes.length ≠ needed then
          fail (.byteCount info.shape info.dtype needed bytes.length)
        else match Element.decode? info.dtype bytes with
          | none => fail (.unsupported info.dtype)
          | some data => RawTensor.make key info.shape data
  | _, _ => .error .overflow

/-- The tensor of a key. -/
def get (file : CheckpointFile) (key : String) : Except Stop RawTensor :=
  match file.header.tensors.find? key with
  | none => .error (.failed (.tensorRead key .unknownKey))
  | some info => file.tensorOf key info

/-- The tensors of the file. -/
def checkpoint (file : CheckpointFile) : Checkpoint := ⟨file.header.tensors.keys, file.get⟩

end CheckpointFile

end FlatWeights
