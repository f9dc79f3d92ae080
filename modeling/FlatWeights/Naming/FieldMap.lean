import FlatWeights.SortedMap

/-!
New names for the fields of a checkpoint, as weight files use them. A built-in table holds
the fields of a transformer block and of the last normalisation; a configuration may add entries
and replace them. A field without an entry keeps its name.
-/

set_option autoImplicit false

namespace FlatWeights

/-- The built-in new names. Fields that are cut or left out have rules of their own and are not
among them. -/
def builtInFields : List (String × String) :=
  [("attn.c_proj.bias", "attention.proj.bias"),
   ("attn.c_proj.weight", "attention.proj.weights"),
   ("ln_1.bias", "ln1.bias"),
   ("ln_1.weight", "ln1.scale"),
   ("ln_2.bias", "ln2.bias"),
   ("ln_2.weight", "ln2.scale"),
   ("mlp.c_fc.bias", "ff.linear1.bias"),
   ("mlp.c_fc.weight", "ff.linear1.weights"),
   ("mlp.c_proj.bias", "ff.linear2.bias"),
   ("mlp.c_proj.weight", "ff.linear2.weights"),
   ("ln_f.bias", "ln_final.bias"),
   ("ln_f.weight", "ln_final.scale")]

/-- A table of new names for fields. -/
structure FieldMap where
  table : SortedMap String
deriving Repr

namespace FieldMap

/-- The built-in table with further entries laid over it. -/
def withOverrides (overrides : SortedMap String) : FieldMap :=
  ⟨overrides.entries.foldl (fun m e => m.insert e.1 e.2) (SortedMap.ofList builtInFields)⟩

/-- The new name of a field. -/
def rename (m : FieldMap) (field : String) : String := (m.table.find? field).getD field

/-- A field has an entry. -/
def contains (m : FieldMap) (field : String) : Bool := m.table.contains field

/-- The number of entries. -/
def size (m : FieldMap) : Nat := m.table.size

/-- There is no entry. -/
def isEmpty (m : FieldMap) : Bool := m.size == 0

end FieldMap

end FlatWeights
