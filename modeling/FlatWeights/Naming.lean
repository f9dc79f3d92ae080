import FlatWeights.Naming.FieldMap
import FlatWeights.Naming.LayerKey

/-!
The naming of a run: how the keys of a checkpoint are read and what their fields are
called in the output.
-/

set_option autoImplicit false

namespace FlatWeights

/-- The configured part of the naming. -/
structure Naming where
  /-- What the keys of blocks begin with. -/
  blockLabel : String := "h"
  /-- What is taken away from the front of a key before it is read. -/
  strip : Option String := none
  /-- New names for fields, which are laid over the built-in ones. -/
  overrides : SortedMap String := .empty
deriving Repr, DecidableEq

namespace Naming

/-- A key without the beginning that is to be taken away; one that begins otherwise stays. -/
def stripped (naming : Naming) (name : String) : String :=
  match naming.strip with
  | none => name
  | some start =>
    match Text.after? start.toList name.toList with
    | some rest => String.ofList rest
    | none => name

/-- What a key of the checkpoint says about its tensor. -/
def layerKey (naming : Naming) (name : String) : LayerKey :=
  LayerKey.parse (naming.stripped name) naming.blockLabel

/-- The new names of fields. -/
def fieldMap (naming : Naming) : FieldMap := .withOverrides naming.overrides

end Naming

end FlatWeights
