import FlatWeights.Bytes
import FlatWeights.Size
import FlatWeights.Tensor

/-!
The format of weight files. A file begins with a header of twelve bytes, the lengths of three axes
as numbers of four bytes; the elements follow in row-major order, four bytes each. There is no
mark, no version and no check sum.
-/

set_option autoImplicit false

namespace FlatWeights

/-- The bytes of one element. -/
def Element.toBytes (e : Element) : Bytes := LittleEndian.toBytes 4 e.toNat

namespace WeightFile

/-- The header of a weight file: three lengths of four bytes each. -/
structure Header where
  dims : Dims UInt32
deriving DecidableEq, Repr

/-- The number of bytes of a header. -/
def headerLength : Nat := 12

namespace Header

/-- The lengths as numbers. -/
def lengths (h : Header) : Dims Nat := h.dims.map UInt32.toNat

/-- The header for a shape, if its lengths have room in four bytes. -/
def ofDims? (d : Dims Nat) : Option Header :=
  if d.outer < UInt32.size ∧ d.middle < UInt32.size ∧ d.inner < UInt32.size then
    some ⟨d.map UInt32.ofNat⟩
  else none

/-- The number of elements that follow, if it is a size. -/
def count? (h : Header) : Option Nat := Size.product? h.lengths.toList

/-- The number of bytes that follow, if it is a size. -/
def payloadLength? (h : Header) : Option Nat := h.count?.bind (Size.mul? · 4)

/-- The bytes of a header. -/
def toBytes (h : Header) : Bytes := h.dims.toList.flatMap Element.toBytes

/-- The header that twelve bytes stand for. -/
def ofBytes (bytes : Bytes) : Header :=
  let length (at4 : Nat) := UInt32.ofNat (LittleEndian.ofBytes ((bytes.drop at4).take 4))
  ⟨⟨length 0, length 4, length 8⟩⟩

end Header

/-! ## Writing -/

/-- The pieces in which a file is written: the header, then each element. -/
def pieces (h : Header) (data : List Element) : List Bytes := h.toBytes :: data.map Element.toBytes

/-- The bytes of a file. The elements are written as they are given, whatever the header says of
their number. -/
def encode (h : Header) (data : List Element) : Bytes := (pieces h data).flatten

/-! ## Reading -/

/-- Why bytes could not be read as a weight file. -/
inductive ReadStop where
  /-- The bytes end too early. -/
  | cutShort
  /-- The header asks for more bytes than a size can count or a buffer can hold. -/
  | overflow
deriving DecidableEq, Repr

/-- Exactly `n` bytes and those that follow them. The buffer for them is made before it is known
whether so many bytes are there. -/
def takeBytes (n : Nat) (bytes : Bytes) : Except ReadStop (Bytes × Bytes) :=
  -- Bytes that are there have room in a buffer.
  if n ≤ bytes.length then .ok (bytes.take n, bytes.drop n)
  else if n < Size.bufferLimit then .error .cutShort
  else .error .overflow

/-- The header at the front of some bytes, and the bytes after it. -/
def readHeader (bytes : Bytes) : Except ReadStop (Header × Bytes) := do
  let (front, rest) ← takeBytes headerLength bytes
  return (.ofBytes front, rest)

/-- The content of a weight file. -/
structure Content where
  header : Header
  data : List Element
deriving DecidableEq, Repr

/-- The weight file at the front of some bytes, and the bytes after it. -/
def decode (bytes : Bytes) : Except ReadStop (Content × Bytes) := do
  let (header, rest) ← readHeader bytes
  match header.payloadLength? with
  | none => .error .overflow
  | some length =>
    let (payload, rest) ← takeBytes length rest
    return (⟨header, (LittleEndian.words 4 payload).map UInt32.ofNat⟩, rest)

end WeightFile

end FlatWeights
