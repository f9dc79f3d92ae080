import FlatWeights.Config
import FlatWeights.Toml.Printer
import FlatWeights.Toml.Scalar

/-!
Writing a configuration as a document. Every section is written, also an empty one, with its fields
in a fixed order; only the part to strip from keys is left out where there is none.
-/

set_option autoImplicit false

namespace FlatWeights.Config

/-- A truth value as it is written. -/
def booleanText (b : Bool) : List Char := (if b then "true" else "false").toList

/-- The line that gives a key its value. -/
def line (key value : List Char) : List Char := key ++ [' ', '=', ' '] ++ value ++ ['\n']

/-- A line with a string as its value. -/
def stringLine (key : List Char) (value : String) : List Char :=
  line key (Toml.writeString value.toList)

/-- The line of a heading. -/
def heading (name : String) : List Char := ['['] ++ name.toList ++ [']', '\n']

/-- The sections of a configuration, each with its heading. -/
def sections (c : Config) : List (List Char) :=
  [heading "storage"
      ++ line "buffer_size".toList c.storage.bufferSize.repr.toList
      ++ line "use_mmap".toList (booleanText c.storage.useMmap),
    heading "output"
      ++ stringLine "dir".toList c.output.dir
      ++ line "atomic_writes".toList (booleanText c.output.atomicWrites)
      ++ stringLine "on_collision".toList c.output.onCollision.word,
    heading "naming"
      ++ stringLine "block_prefix".toList c.naming.blockLabel
      ++ (match c.naming.strip with
        | none => []
        | some start => stringLine "strip_prefix".toList start),
    heading "naming.map"
      ++ c.naming.overrides.entries.flatMap fun e =>
        stringLine (Toml.writeKey e.1.toList) e.2]

/-- The document of a configuration: its sections, with an empty line between them. The size of the
buffers has to be an integer of the configuration language. -/
def toToml? (c : Config) : Option String :=
  if Toml.isInteger c.storage.bufferSize then
    some (String.ofList (['\n'].intercalate c.sections))
  else none

end FlatWeights.Config
