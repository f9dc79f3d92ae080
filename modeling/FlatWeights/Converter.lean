import FlatWeights.Checkpoint.File
import FlatWeights.Conversion
import FlatWeights.Verify

/-!
A converter: a valid configuration together with the storage that it writes to. It opens
checkpoints, converts them, and checks what it has written.
-/

set_option autoImplicit false

namespace FlatWeights

/-- A valid configuration and the storage of its output. -/
structure Converter (m : Type → Type) where
  config : Config
  storage : Storage m

namespace Converter

variable {m : Type → Type} [Monad m]

/-- The converter of a configuration. Output paths start from the working directory. -/
def ofConfig [FileSystem m] (config : Config) : Run m (Converter m) := do
  ExceptT.mk (pure config.validate)
  return ⟨config, ← Storage.openBelow "." config.storage.bufferSize⟩

/-- Open a checkpoint file in the configured way. -/
def openCheckpoint [FileSystem m] (converter : Converter m) (path : Path) :
    Run m CheckpointFile :=
  CheckpointFile.open path converter.config.storage.useMmap

/-- Convert every tensor of a checkpoint. -/
def convert (converter : Converter m) (checkpoint : Checkpoint) : m ConversionOutcome :=
  Conversion.perform converter.storage converter.config.output converter.config.naming checkpoint

/-- Open a checkpoint file and convert every tensor in it. -/
def convertFile [FileSystem m] (converter : Converter m) (path : Path) :
    Run m ConversionReport := do
  let file ← converter.openCheckpoint path
  let outcome ← Run.always (converter.convert file.checkpoint)
  ExceptT.mk (pure outcome.result)

/-- Check every weight file in the output directory. -/
def verify (converter : Converter m) : Run m VerifyReport :=
  VerifyReport.ofDirectory converter.storage converter.config.output.dir

end Converter

end FlatWeights
