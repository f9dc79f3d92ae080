import FlatWeights.Failure
import FlatWeights.Size

/-!
Tensors at the three stages of a run: as a checkpoint stores them, with three axes, and named for
the file that will hold them. Elements are kept as the bit patterns of single-precision numbers and
are never computed with, so every pattern passes through unchanged.
-/

set_option autoImplicit false

namespace FlatWeights

/-- The bit pattern of a single-precision number. -/
abbrev Element := UInt32

/-- A tensor as a checkpoint stores it, decoded to single precision. -/
structure RawTensor where
  name : String
  shape : Shape
  data : List Element
deriving DecidableEq, Repr

/-- A tensor with three axes, its elements in row-major order. -/
structure CanonicalTensor where
  dims : Dims Nat
  data : List Element
deriving DecidableEq, Repr

/-- A tensor ready to be written, with the name of its file. -/
structure OutputTensor where
  name : String
  dims : Dims Nat
  data : List Element
deriving DecidableEq, Repr

/-- The tensor with the given elements, if its shape asks for exactly as many. -/
def RawTensor.make (name : String) (shape : Shape) (data : List Element) :
    Except Stop RawTensor :=
  match Size.product? shape with
  | none => .error .overflow
  | some expected =>
    if expected = data.length then .ok ⟨name, shape, data⟩
    else .error (.failed (.tensorRead name (.elementCount shape expected data.length)))

/-- The number of elements. -/
def RawTensor.count (t : RawTensor) : Nat := t.data.length

namespace CanonicalTensor

/-- The number of elements. -/
def count (t : CanonicalTensor) : Nat := t.data.length

/-- The three-axis form of the shape of a named tensor. -/
def dimsOf (name : String) (shape : Shape) : Except Stop (Dims Nat) :=
  match shape.canonical with
  | .ok dims => .ok dims
  | .error first => .error (.failed (.shape name (.leadingLength shape first)))

/-- A stored tensor with three axes; its elements stay as they are. -/
def ofRaw (raw : RawTensor) : Except Stop CanonicalTensor := do
  let dims ← dimsOf raw.name raw.shape
  return ⟨dims, raw.data⟩

/-- The tensor under the name of its file. -/
def named (t : CanonicalTensor) (name : String) : OutputTensor := ⟨name, t.dims, t.data⟩

end CanonicalTensor

end FlatWeights
