import FlatWeights.Size
import FlatWeights.Text.Cut

/-!
Keys of a checkpoint. The key of a tensor inside a transformer block is the label of blocks, the
number of the block and a field, divided by points, as in `h.3.mlp.c_fc.weight`. Every other key
names a tensor that belongs to the model as a whole.
-/

set_option autoImplicit false

namespace FlatWeights

/-- What a key of a checkpoint says about its tensor. -/
inductive LayerKey where
  /-- The tensor belongs to no block. -/
  | global (field : String)
  /-- The tensor is the given field of the block with that number. -/
  | block (index : Nat) (field : String)
deriving DecidableEq, Repr

namespace LayerKey

/-- The field that a key names. -/
def field : LayerKey → String
  | global field => field
  | block _ field => field

/-- The number that a text of decimal digits denotes. The text must not be empty, may begin with
zeros, and the number must be a size. -/
def index? (digits : List Char) : Option Nat :=
  if digits ≠ [] ∧ digits.all Char.isDigit then Size.check? (Nat.ofDigitChars 10 digits 0)
  else none

/-- The number and the field of a key that begins with the label of blocks. -/
def blockOf? (label name : List Char) : Option (Nat × List Char) := do
  let pointed ← Text.after? label name
  let numbered ← Text.after? ['.'] pointed
  let (digits, field) ← Text.splitOnce? '.' numbered
  let index ← index? digits
  if field = [] then none else some (index, field)

/-- The key with a given name, where blocks have the given label. -/
def parse (name label : String) : LayerKey :=
  match blockOf? label.toList name.toList with
  | some (index, field) => .block index (String.ofList field)
  | none => .global name

end LayerKey

end FlatWeights
