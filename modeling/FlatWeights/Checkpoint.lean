import FlatWeights.Tensor

/-!
A checkpoint, seen as a collection of named tensors: the keys in the order in which they are gone
through, and the tensor of each key.
-/

set_option autoImplicit false

namespace FlatWeights

/-- A collection of named tensors. -/
structure Checkpoint where
  keys : List String
  get : String → Except Stop RawTensor

namespace Checkpoint

/-- The number of tensors. -/
def size (c : Checkpoint) : Nat := c.keys.length

/-- There are no tensors. -/
def isEmpty (c : Checkpoint) : Bool := c.size == 0

/-- The tensors of all keys, in the order of the keys. -/
def tensors (c : Checkpoint) : List (Except Stop RawTensor) := c.keys.map c.get

/-- The checkpoint that a list of named tensors gives. The list is gone through in its order; a key
stands for the first tensor of its name. -/
def ofList (items : List (String × Except Stop RawTensor)) : Checkpoint where
  keys := items.map (·.1)
  get key := (items.lookup key).getD (.error (.failed (.tensorRead key .unknownKey)))

end Checkpoint

end FlatWeights
