import FlatWeights.Bytes
import FlatWeights.Checkpoint.Dtype
import FlatWeights.Checkpoint.HeaderFault
import FlatWeights.Json
import FlatWeights.Shape
import FlatWeights.SortedMap

/-!
The header of a checkpoint. A checkpoint file is the length of its header in eight bytes, the
header as text, and the bytes of the tensors. The header gives each tensor its element type, its
shape and its place among the bytes; the tensors in the order of their places must follow each
other without gaps from the first byte to the last.
-/

set_option autoImplicit false

namespace FlatWeights

/-- What a header says about one tensor: its bytes are those from `start` up to `stop`. -/
structure TensorInfo where
  dtype : Dtype
  shape : Shape
  start : Nat
  stop : Nat
deriving DecidableEq, Repr

/-- The header of a checkpoint: its length, and what it says about each tensor. -/
structure CheckpointHeader where
  length : Nat
  tensors : SortedMap TensorInfo
deriving Repr

namespace CheckpointHeader

/-! ## The description -/

/-- A size. -/
def size? : Json → Option Nat
  | .size n => some n
  | _ => none

/-- An element type: its name, or an object whose only member has that name and no value. -/
def dtype? : Json → Option Dtype
  | .string name => Dtype.ofName? name
  | .object [(name, .null)] => Dtype.ofName? name
  | _ => none

/-- A shape: an array of sizes. -/
def shape? : Json → Option Shape
  | .array items => items.mapM size?
  | _ => none

/-- A place among the bytes: an array of two sizes. -/
def place? : Json → Option (Nat × Nat)
  | .array [start, stop] => do return (← size? start, ← size? stop)
  | _ => none

/-- The only member of a name. -/
def single? (members : List (String × Json)) (name : String) : Option Json :=
  match members.filter (·.1 = name) with
  | [(_, value)] => some value
  | _ => none

/-- A tensor from its three fields. -/
def infoOf? (dtype shape place : Json) : Option TensorInfo := do
  let (start, stop) ← place? place
  return ⟨← dtype? dtype, ← shape? shape, start, stop⟩

/-- What the header says about a tensor: an object that has each of three fields once, or an array
of the three. -/
def info? : Json → Option TensorInfo
  | .object members => do
    infoOf? (← single? members "dtype") (← single? members "shape")
      (← single? members "data_offsets")
  | .array [dtype, shape, place] => infoOf? dtype shape place
  | _ => none

/-- The name of the member that holds remarks and no tensor. -/
def remarksKey : String := "__metadata__"

/-- Remarks may be missing; otherwise they are texts under names. -/
def isRemarks : Json → Bool
  | .null => true
  | .object members => members.all fun m =>
    match m.2 with
    | .string _ => true
    | _ => false
  | _ => false

/-- The tensors that a description gives. Of two tensors of one name the later one counts. -/
def tensors? : Json → Option (SortedMap TensorInfo)
  | .object members =>
    let (remarks, tensors) := members.partition (·.1 = remarksKey)
    if remarks.length ≤ 1 ∧ remarks.all (fun m => isRemarks m.2) then do
      let infos ← tensors.mapM fun m => (info? m.2).map fun info => (m.1, info)
      return SortedMap.ofList infos
    else none
  | _ => none

/-! ## The places of the tensors -/

/-- Tensors in the order of their places. -/
def byPlace (tensors : SortedMap TensorInfo) : List (String × TensorInfo) :=
  tensors.entries.mergeSort fun a b =>
    a.2.start < b.2.start || (a.2.start == b.2.start && a.2.stop ≤ b.2.stop)

/-- What is wrong with a tensor that should begin at a given byte. -/
def faultAt? (next : Nat) (name : String) (info : TensorInfo) : Option HeaderFault :=
  if info.start ≠ next ∨ info.stop < info.start then some (.misplaced name)
  else match (Size.product? info.shape).bind (Size.mul? · info.dtype.width) with
    | none => some .oversized
    | some bytes => if info.stop - info.start ≠ bytes then some .wrongLength else none

/-- The byte after the last tensor, if each tensor begins where the one before it ends and has the
bytes that its shape asks for. -/
def endOf (next : Nat) : List (String × TensorInfo) → Except HeaderFault Nat
  | [] => .ok next
  | (name, info) :: rest =>
    match faultAt? next name info with
    | some fault => .error fault
    | none => endOf info.stop rest

/-! ## Reading -/

/-- The number of bytes of the length of a header. -/
def lengthWidth : Nat := 8

/-- The greatest length of a header. -/
def longest : Nat := 100000000

/-- Why a header could not be read. -/
inductive ReadStop where
  | faulty (fault : HeaderFault)
  /-- The end of the last tensor in the file is no size. -/
  | overflow
deriving DecidableEq, Repr

/-- Stop with a fault. -/
def fail {α : Type} (fault : HeaderFault) : Except ReadStop α := .error (.faulty fault)

/-- The text of bytes, if they are one. -/
def textOf? (bytes : Bytes) : Option String := String.fromUTF8? ⟨bytes.toArray⟩

/-- The header of a checkpoint file. -/
def ofFile (file : Bytes) : Except ReadStop CheckpointHeader :=
  if file.length < lengthWidth then fail .tooSmall
  else
    let length := LittleEndian.ofBytes (file.take lengthWidth)
    if longest < length then fail .tooLarge
    else if file.length < lengthWidth + length then fail .pastEnd
    else match textOf? ((file.drop lengthWidth).take length) with
      | none => fail .notText
      | some text =>
        match (Json.read? text.toList).bind tensors? with
        | none => fail .notDescription
        | some tensors =>
          match endOf 0 (byPlace tensors) with
          | .error fault => fail fault
          | .ok stop =>
            match (Size.add? stop lengthWidth).bind (Size.add? · length) with
            | none => .error .overflow
            | some total =>
              if total = file.length then .ok ⟨length, tensors⟩ else fail .uncovered

end CheckpointHeader

end FlatWeights
