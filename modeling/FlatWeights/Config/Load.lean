import FlatWeights.Config.Reader
import FlatWeights.Storage

/-!
The configuration of a run: the file that is named for it, or the defaults, and over it what the
environment sets. Each variable of the environment concerns one field; one that does not parse
changes nothing.
-/

set_option autoImplicit false

namespace FlatWeights

/-- The variables that are set, each with its value. -/
abbrev Environment := List (String × String)

namespace Environment

/-- The variables that set fields of the configuration. -/
def names : List String :=
  ["WGT_STORAGE_BUFFER_SIZE", "WGT_STORAGE_USE_MMAP", "WGT_OUTPUT_DIR",
    "WGT_OUTPUT_ATOMIC_WRITES", "WGT_OUTPUT_ON_COLLISION", "WGT_NAMING_BLOCK_PREFIX",
    "WGT_NAMING_STRIP_PREFIX"]

/-- A size in decimal digits; a plus sign may stand before it. -/
def size? (text : String) : Option Nat :=
  let digits := match text.toList with
    | '+' :: rest => rest
    | text => text
  if digits ≠ [] ∧ digits.all Char.isDigit then Size.check? (Nat.ofDigitChars 10 digits 0) else none

/-- A truth value, written as exactly `true` or `false`. -/
def boolean? (text : String) : Option Bool :=
  if text = "true" then some true else if text = "false" then some false else none

/-- A collision policy, whatever the case of its letters. -/
def policy? (text : String) : Option CollisionPolicy := (CollisionPolicy.parse text).toOption

/-- What a variable sets a field to, if it is set and parses. -/
def setting? {α : Type} (env : Environment) (name : String) (read : String → Option α) : Option α :=
  (env.lookup name).bind read

end Environment

namespace Config

/-- The configuration with the fields that the environment sets. -/
def withEnvironment (env : Environment) (c : Config) : Config where
  storage := {
    bufferSize := (env.setting? "WGT_STORAGE_BUFFER_SIZE" Environment.size?).getD
      c.storage.bufferSize
    useMmap := (env.setting? "WGT_STORAGE_USE_MMAP" Environment.boolean?).getD c.storage.useMmap }
  output := {
    dir := (env.setting? "WGT_OUTPUT_DIR" some).getD c.output.dir
    atomicWrites := (env.setting? "WGT_OUTPUT_ATOMIC_WRITES" Environment.boolean?).getD
      c.output.atomicWrites
    onCollision := (env.setting? "WGT_OUTPUT_ON_COLLISION" Environment.policy?).getD
      c.output.onCollision }
  naming := {
    blockLabel := (env.setting? "WGT_NAMING_BLOCK_PREFIX" some).getD c.naming.blockLabel
    strip := (env.setting? "WGT_NAMING_STRIP_PREFIX" fun text => some (some text)).getD
      c.naming.strip
    overrides := c.naming.overrides }

variable {m : Type → Type} [Monad m] [FileSystem m]

/-- The configuration in the file at a path. It has to be valid by itself. -/
def ofFile (path : Path) : Run m Config := do
  let text? := match ← Run.always (FileSystem.open? path) with
    | some (.file content) => String.fromUTF8? ⟨content.toArray⟩
    | _ => none
  match text? with
  | none => Run.fail (.config (.unreadable path))
  | some text =>
    let config ← ExceptT.mk (pure (parse text))
    ExceptT.mk (pure config.validate)
    return config

/-- The configuration of a run: that of the file, if one is named, with what the environment
sets. -/
def load (path? : Option Path) (env : Environment) : Run m Config := do
  let config ← match path? with
    | none => pure {}
    | some path => ofFile path
  return config.withEnvironment env

end Config

end FlatWeights
