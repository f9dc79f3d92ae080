import FlatWeights.Blocks
import FlatWeights.Tensor

/-!
Cutting a tensor along an axis. `splitLast` cuts every row into equally wide parts, `splitMiddle`
cuts every slice of the outer axis into a first and a second half. `joinLast` and `joinMiddle` lay
the pieces side by side again; they are what "nothing is lost" means for the two cuts.

A tensor that was made has the elements that its lengths ask for. One that was put together without
being made may have fewer or more. It is not cut if a place that is asked for lies outside of its
buffer; what a longer buffer has at its end is left out.
-/

set_option autoImplicit false

namespace FlatWeights

namespace CanonicalTensor

/-! ## The last axis -/

/-- The columns `start` up to `start + width` of every row, where all rows are in the buffer. -/
def columns (t : CanonicalTensor) (rows start width : Nat) : List Element :=
  (blocks t.dims.inner rows t.data).flatMap fun row => (row.drop start).take width

/-- The bytes that a tensor takes in a list of tensors: three lengths, and the place, the room and
the length of the buffer with its elements. -/
def entryBytes : Nat := 6 * 8

/-- The tensor cut along its last axis into equally wide parts, first part first. -/
def splitLast (t : CanonicalTensor) (name : String) (parts : Nat) :
    Except Stop (List CanonicalTensor) :=
  if parts = 0 ∨ t.dims.inner % parts ≠ 0 then
    .error (.failed (.shape name (.indivisible t.dims parts)))
  else
    let width := t.dims.inner / parts
    match Size.product? [t.dims.outer, t.dims.middle],
      Size.product? [t.dims.outer, t.dims.middle, width], Size.buffer? parts entryBytes with
    | some rows, some _, some _ =>
      if t.data.length < rows * t.dims.inner then .error .overflow
      else .ok ((List.range parts).map fun part =>
        ⟨⟨t.dims.outer, t.dims.middle, width⟩, t.columns rows (part * width) width⟩)
    | _, _, _ => .error .overflow

/-- Rows of several tensors laid side by side: the first rows of all, then the second rows. -/
def joinRows (pieces : List (List (List Element))) : Nat → List Element
  | 0 => []
  | rows + 1 =>
    pieces.flatMap (fun piece => piece.headD []) ++ joinRows (pieces.map List.tail) rows

/-- Tensors laid side by side along their last axis. -/
def joinLast (outer middle : Nat) (pieces : List CanonicalTensor) : CanonicalTensor :=
  let rows := outer * middle
  ⟨⟨outer, middle, pieces.foldr (fun p width => p.dims.inner + width) 0⟩,
    joinRows (pieces.map fun p => blocks p.dims.inner rows p.data) rows⟩

/-! ## The middle axis -/

/-- The number of rows of the first half: half of them, the odd one included. -/
def headRows (middle : Nat) : Nat := (middle + 1) / 2

/-- The tensor cut along its middle axis into a first and a second half. The last slice has to
begin at a place that is a size; the slices before it begin further in front. -/
def splitMiddle (t : CanonicalTensor) : Except Stop (CanonicalTensor × CanonicalTensor) :=
  let head := headRows t.dims.middle
  let tail := t.dims.middle - head
  match Size.product? [t.dims.outer, head, t.dims.inner],
    Size.product? [t.dims.outer, tail, t.dims.inner],
    Size.product? [t.dims.outer - 1, t.dims.middle, t.dims.inner] with
  | some _, some _, some _ =>
    if t.data.length < t.dims.outer * t.dims.middle * t.dims.inner then .error .overflow
    else
      let slices := blocks (t.dims.middle * t.dims.inner) t.dims.outer t.data
      .ok (⟨⟨t.dims.outer, head, t.dims.inner⟩, slices.flatMap (·.take (head * t.dims.inner))⟩,
        ⟨⟨t.dims.outer, tail, t.dims.inner⟩, slices.flatMap (·.drop (head * t.dims.inner))⟩)
  | _, _, _ => .error .overflow

/-- Two tensors laid one after the other along their middle axis, slice by slice. -/
def joinMiddle (first second : CanonicalTensor) : CanonicalTensor :=
  let slices (t : CanonicalTensor) := blocks (t.dims.middle * t.dims.inner) first.dims.outer t.data
  ⟨⟨first.dims.outer, first.dims.middle + second.dims.middle, first.dims.inner⟩,
    (List.zipWith (· ++ ·) (slices first) (slices second)).flatten⟩

end CanonicalTensor

end FlatWeights
