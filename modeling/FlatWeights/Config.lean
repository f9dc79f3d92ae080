import FlatWeights.Failure
import FlatWeights.Naming
import FlatWeights.Path
import FlatWeights.Text.Lowercase

/-!
The configuration of a run: how files are read, where and how output is written, and how the keys
of a checkpoint are named in the output.
-/

set_option autoImplicit false

namespace FlatWeights

/-- What happens when two tensors of a run have one output name. -/
inductive CollisionPolicy where
  /-- The run fails. -/
  | error
  /-- The later tensor takes the place of the earlier one. -/
  | warn
deriving DecidableEq, Repr

namespace CollisionPolicy

/-- The word for a policy. -/
def word : CollisionPolicy → String
  | error => "error"
  | warn => "warn"

/-- The policy for a word, in exactly its lower-case spelling. -/
def ofWord? (s : String) : Option CollisionPolicy :=
  if s = "error" then some error else if s = "warn" then some warn else none

/-- The policy for a word, whatever the case of its letters. -/
def parse (s : String) : Except Stop CollisionPolicy :=
  let small := Text.lowercase s
  match ofWord? small with
  | some policy => .ok policy
  | none => .error (.failed (.config (.unknownPolicy small)))

/-- Each policy is read back from its word. -/
theorem ofWord?_word (p : CollisionPolicy) : ofWord? p.word = some p := by
  cases p <;> decide

end CollisionPolicy

/-- How files are read and written. -/
structure StorageSettings where
  /-- The size of the buffers of readers and writers, in bytes. What is read and written does not
  depend on it, but from `Size.bufferLimit` on nothing can be opened for reading or writing. -/
  bufferSize : Nat := Size.defaultBuffer
  /-- Map a checkpoint into memory in place of reading it as a whole. -/
  useMmap : Bool := true
deriving DecidableEq, Repr

/-- Where and how output is written. -/
structure OutputSettings where
  /-- The directory for the weight files. -/
  dir : Path := "./weights"
  /-- Write a file under a name of its own before it takes its place. -/
  atomicWrites : Bool := true
  onCollision : CollisionPolicy := .error
deriving DecidableEq, Repr

/-- The configuration of a run. -/
structure Config where
  storage : StorageSettings := {}
  output : OutputSettings := {}
  naming : Naming := {}
deriving DecidableEq, Repr

namespace Config

/-- What is wrong with a new name for a field. -/
def mappingFault? (field newName : String) : Option ConfigFault :=
  if field = "" ∨ newName = "" then some .emptyMapping
  else if newName.toList.any (fun c => c == '/' || c == '\\') then
    some (.separatorInMapping newName)
  else none

/-- The first thing that is wrong with a configuration. -/
def fault? (c : Config) : Option ConfigFault :=
  if c.storage.bufferSize = 0 then some .zeroBuffer
  else if c.output.dir = "" then some .noOutputDirectory
  else if c.naming.blockLabel = "" then some .noBlockPrefix
  else c.naming.overrides.entries.findSome? fun e => mappingFault? e.1 e.2

/-- Accept a configuration in which nothing is wrong. -/
def validate (c : Config) : Except Stop Unit :=
  match c.fault? with
  | some fault => .error (.failed (.config fault))
  | none => .ok ()

end Config

end FlatWeights
