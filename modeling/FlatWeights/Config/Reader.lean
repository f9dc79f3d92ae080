import FlatWeights.Config
import FlatWeights.Toml.Reader

/-!
Reading a configuration from a document. A section is a table of its fields, or an array of them in
their fixed order; fields that are missing have their default, and what is not known is passed
over. A date counts as a table with one entry, its text under a reserved name.
-/

set_option autoImplicit false

namespace FlatWeights.Config

open Toml (Value Entries)

/-! ## Values of a kind -/

/-- A size: an integer that is not negative. -/
def size? : Value → Option Nat
  | .integer n => if 0 ≤ n then some n.toNat else none
  | _ => none

/-- A truth value. -/
def boolean? : Value → Option Bool
  | .boolean b => some b
  | _ => none

/-- A text. -/
def string? : Value → Option String
  | .string s => some s
  | _ => none

/-- The name under which a date has its text, where a table is expected. -/
def dateKey : String := "$__toml_private_datetime"

/-- The entries of a value that is a table. -/
def entries? : Value → Option Entries
  | .table _ entries => some entries
  | .datetime text => some [(dateKey, .string text)]
  | _ => none

/-- The value is a table without entries or an array without items. -/
def isEmpty : Value → Bool
  | .table _ entries => entries.isEmpty
  | .array items => items.isEmpty
  | _ => false

/-- A collision policy: its word, or a table whose only key is the word, with nothing in it. -/
def policy? : Value → Option CollisionPolicy
  | .string word => CollisionPolicy.ofWord? word
  | .table _ [(word, content)] => if isEmpty content then CollisionPolicy.ofWord? word else none
  | _ => none

/-- A map of texts: a table in which every value is a text. -/
def stringMap? (value : Value) : Option (SortedMap String) := do
  let entries ← entries? value
  let pairs ← entries.mapM fun e => (string? e.2).map fun s => (e.1, s)
  return SortedMap.ofList pairs

/-! ## Sections -/

/-- The fields of a section, found by name in a table or by position in an array. -/
inductive Fields where
  | named (entries : Entries)
  | listed (items : List Value)

/-- The fields that a value gives. -/
def Fields.of? : Value → Option Fields
  | .array items => some (.listed items)
  | .tables rows => some (.listed (rows.map (.table .headed ·)))
  | value => (entries? value).map .named

/-- The value of a field, given by its name and its position. -/
def Fields.find? (name : String) (position : Nat) : Fields → Option Value
  | named entries => entries.find? name
  | listed items => items[position]?

/-- A field that has a default. -/
def Fields.get {α : Type} (fields : Fields) (name : String) (position : Nat)
    (read : Value → Option α) (default : α) : Option α :=
  match fields.find? name position with
  | none => some default
  | some value => read value

/-- The settings of reading and writing files. -/
def storage? (fields : Fields) : Option StorageSettings := do
  let d : StorageSettings := {}
  return {
    bufferSize := ← fields.get "buffer_size" 0 size? d.bufferSize
    useMmap := ← fields.get "use_mmap" 1 boolean? d.useMmap }

/-- The settings of the output. -/
def output? (fields : Fields) : Option OutputSettings := do
  let d : OutputSettings := {}
  return {
    dir := ← fields.get "dir" 0 string? d.dir
    atomicWrites := ← fields.get "atomic_writes" 1 boolean? d.atomicWrites
    onCollision := ← fields.get "on_collision" 2 policy? d.onCollision }

/-- The naming. -/
def naming? (fields : Fields) : Option Naming := do
  let d : Naming := {}
  return {
    blockLabel := ← fields.get "block_prefix" 0 string? d.blockLabel
    strip := ← fields.get "strip_prefix" 1 (fun v => (string? v).map some) d.strip
    overrides := ← fields.get "map" 2 stringMap? d.overrides }

/-- A section of the document, with a default for one that is missing. -/
def section? {α : Type} (entries : Entries) (name : String) (read : Fields → Option α)
    (default : α) : Option α :=
  match entries.find? name with
  | none => some default
  | some value => (Fields.of? value).bind read

/-- The configuration that a document gives. -/
def ofEntries? (entries : Entries) : Option Config := do
  let d : Config := {}
  return {
    storage := ← section? entries "storage" storage? d.storage
    output := ← section? entries "output" output? d.output
    naming := ← section? entries "naming" naming? d.naming }

/-- Read a configuration. Nothing is said of what was not understood. -/
def parse (text : String) : Except Stop Config :=
  match (Toml.read? text).bind ofEntries? with
  | some config => .ok config
  | none => .error (.failed (.config .notUnderstood))

end FlatWeights.Config
