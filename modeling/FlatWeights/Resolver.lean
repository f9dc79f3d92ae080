import FlatWeights.Naming
import FlatWeights.Tensor.Split

/-!
From a stored tensor to the tensors that are written for it. The tensor is brought to three axes,
its key is read, its field is renamed, and the new name of the field decides what becomes of it:

* the fixed mask of attention is left out;
* the fused attention of a block is cut along its last axis into query, key and value;
* an embedding of the model is cut along its middle axis into two chunks;
* everything else is written whole under its new name.
-/

set_option autoImplicit false

namespace FlatWeights

/-- What becomes of a tensor. -/
inductive Layout where
  /-- Nothing is written. -/
  | dropped
  /-- Query, key and value of a block; `ending` is the last part of their names. -/
  | fusedAttention (block : Nat) (ending : String)
  /-- Two chunks, named after the embedding. -/
  | chunkedEmbedding (stem : String)
  /-- One file of the given name. -/
  | whole (name : String)
deriving DecidableEq, Repr

namespace Layout

/-- The name of a field of a block in the output. -/
def blockField (block : Nat) (field : String) : String := "block" ++ block.repr ++ "." ++ field

/-- The three parts of a fused attention tensor, in their order along the last axis. -/
def attentionRoles : List String := ["query", "key", "value"]

/-- The name of one part of a fused attention tensor. -/
def attentionName (block : Nat) (ending role : String) : String :=
  blockField block ("attention." ++ role ++ "." ++ ending)

/-- What becomes of a tensor with the given key, if its field is renamed to `field`. -/
def of (key : LayerKey) (field : String) : Layout :=
  if field = "attn.bias" then .dropped
  else match key with
    | .block index _ =>
      if field = "attn.c_attn.bias" then .fusedAttention index "bias"
      else if field = "attn.c_attn.weight" then .fusedAttention index "weights"
      else .whole (blockField index field)
    | .global _ =>
      if field = "wte.weight" then .chunkedEmbedding "embeddings"
      else if field = "wpe.weight" then .chunkedEmbedding "position_embeddings"
      else .whole field

end Layout

namespace Naming

/-- What becomes of the tensor with a given name. -/
def layout (naming : Naming) (name : String) : Layout :=
  let key := naming.layerKey name
  .of key (naming.fieldMap.rename key.field)

/-- The tensors that are written for a stored one, in the order in which they are written. -/
def resolve (naming : Naming) (raw : RawTensor) : Except Stop (List OutputTensor) := do
  let tensor ← CanonicalTensor.ofRaw raw
  match naming.layout raw.name with
  | .dropped => return []
  | .fusedAttention block ending =>
    let parts ← tensor.splitLast raw.name Layout.attentionRoles.length
    return parts.zipWith (fun part role => part.named (Layout.attentionName block ending role))
      Layout.attentionRoles
  | .chunkedEmbedding stem =>
    let (first, second) ← tensor.splitMiddle
    return [first.named (stem ++ ".chunk1"), second.named (stem ++ ".chunk2")]
  | .whole name => return [tensor.named name]

end Naming

end FlatWeights
