import FlatWeights.Checkpoint.Dtype
import FlatWeights.Checkpoint.HeaderFault
import FlatWeights.Shape

/-!
Failures. Each is a cause together with the path or the name that it concerns; the wording is in
the functions `describe` and `Failure.message`, and `hasSource` says which causes pass on an error
of the file system or of the configuration reader. A computation may also stop because a count
would pass the limit of `Size`, or because a buffer cannot be made or ends too early; `Stop` tells
this apart from a failure.
-/

set_option autoImplicit false

namespace FlatWeights

/-- The operations of a store of files, as a rehearsal of failures names them. -/
inductive StorageCall where
  | exists | openRead | openWrite | finish | delete | list | createDirs | rename
deriving DecidableEq, Repr

/-- The name of an operation in a log and in the message of a rehearsed failure. -/
def StorageCall.word : StorageCall → String
  | «exists» => "exists"
  | openRead => "open_read"
  | openWrite => "open_write"
  | finish => "finish"
  | delete => "delete"
  | list => "list"
  | createDirs => "create_dir_all"
  | rename => "rename"

/-- Why something could not be opened for reading. -/
inductive OpenFault where
  | missingOutput
  | cannotOpen
  | notDirectory
  | cannotOpenCheckpoint
  | cannotMapCheckpoint
  | cannotReadCheckpoint
  | badHeader (fault : HeaderFault)
  | rehearsed (call : StorageCall)
deriving DecidableEq, Repr

/-- Why the elements of a tensor could not be had. -/
inductive TensorFault where
  | elementCount (shape : Shape) (expected actual : Nat)
  | unknownKey
  | outOfRange (start stop size : Nat)
  | byteCount (shape : Shape) (dtype : Dtype) (expected actual : Nat)
  | unsupported (dtype : Dtype)
  | shorterThanHeader (size : Nat)
  | headerOfDirectory
  | headerCutShort
  | payloadLength (dims : Dims Nat) (expected actual : Nat)
  | other (text : String)
deriving DecidableEq, Repr

/-- Why a shape does not fit an operation. -/
inductive ShapeFault where
  | leadingLength (shape : Shape) (length : Nat)
  | indivisible (dims : Dims Nat) (parts : Nat)
deriving DecidableEq, Repr

/-- Why something could not be written. -/
inductive WriteFault where
  | invalidName (name : String)
  | tooLongForHeader (dims : Dims Nat)
  | dataRefused
  | baseDirectory
  | parentDirectories
  | createFile
  | deleteDirectory
  | deleteFile
  | renameTo (target : String)
  | createDirectories
  | rehearsed (call : StorageCall)
deriving DecidableEq, Repr

/-- Why a configuration was refused. -/
inductive ConfigFault where
  | unreadable (path : String)
  | notUnderstood
  | zeroBuffer
  | noOutputDirectory
  | noBlockPrefix
  | emptyMapping
  | separatorInMapping (value : String)
  | unknownPolicy (text : String)
deriving DecidableEq, Repr

/-- Everything that can go wrong, with the place where it did. -/
inductive Failure where
  | storeOpen (path : String) (fault : OpenFault)
  | tensorRead (name : String) (fault : TensorFault)
  | shape (name : String) (fault : ShapeFault)
  | write (path : String) (fault : WriteFault)
  | collision (name : String)
  | config (fault : ConfigFault)
deriving DecidableEq, Repr

/-- Why a computation ended before its result. -/
inductive Stop where
  /-- A failure that is reported. -/
  | failed (failure : Failure)
  /-- A count passed the limit of sizes, a buffer could not be made, or a place lay outside one. -/
  | overflow
deriving DecidableEq, Repr

/-! ## Wording -/

/-- The wording of a failure to open. -/
def OpenFault.describe : OpenFault → String
  | missingOutput => "output directory does not exist"
  | cannotOpen => "failed to open file"
  | notDirectory => "path is not a directory"
  | cannotOpenCheckpoint => "failed to open checkpoint"
  | cannotMapCheckpoint => "failed to memory-map checkpoint"
  | cannotReadCheckpoint => "failed to read checkpoint"
  | badHeader fault => "invalid safetensors header: " ++ fault.word
  | rehearsed call => "injected " ++ call.word

/-- The wording of a failure to read a tensor. -/
def TensorFault.describe : TensorFault → String
  | elementCount shape expected actual =>
    "declared shape " ++ shape.render ++ " holds " ++ expected.repr ++ " elements, buffer has "
      ++ actual.repr
  | unknownKey => "no such tensor in checkpoint"
  | outOfRange start stop size =>
    "data range " ++ start.repr ++ ".." ++ stop.repr ++ " exceeds checkpoint size " ++ size.repr
  | byteCount shape dtype expected actual =>
    "declared shape " ++ shape.render ++ " (" ++ dtype.name ++ ") needs " ++ expected.repr
      ++ " bytes, buffer has " ++ actual.repr
  | unsupported dtype => "unsupported dtype " ++ dtype.name ++ ", expected a float type"
  | shorterThanHeader size => size.repr ++ " bytes is shorter than the 12-byte header"
  | headerOfDirectory => "failed to read header: Is a directory (os error 21)"
  | headerCutShort => "failed to read header: failed to fill whole buffer"
  | payloadLength dims expected actual =>
    "header " ++ dims.render ++ " expects " ++ expected.repr ++ " payload bytes, file has "
      ++ actual.repr
  | other text => text

/-- The wording of a failure of shapes. -/
def ShapeFault.describe : ShapeFault → String
  | leadingLength shape length =>
    "cannot reduce " ++ shape.render ++ " to rank 3: leading dimension is " ++ length.repr
      ++ ", not 1"
  | indivisible dims parts =>
    "last dimension " ++ dims.inner.repr ++ " of " ++ dims.render ++ " is not divisible by "
      ++ parts.repr

/-- The wording of a failure to write. -/
def WriteFault.describe : WriteFault → String
  | invalidName name => "'" ++ name ++ "' is not a valid output file name"
  | tooLongForHeader dims => "shape " ++ dims.render ++ " does not fit a u32 header"
  | dataRefused => "failed to write tensor data"
  | baseDirectory => "failed to create base directory"
  | parentDirectories => "failed to create parent directories"
  | createFile => "failed to create file"
  | deleteDirectory => "failed to delete directory"
  | deleteFile => "failed to delete file"
  | renameTo target => "failed to rename to " ++ target
  | createDirectories => "failed to create directories"
  | rehearsed call => "injected " ++ call.word

/-- The wording of a refused configuration. -/
def ConfigFault.describe : ConfigFault → String
  | unreadable path => "failed to read config file " ++ path
  | notUnderstood => "failed to parse TOML config"
  | zeroBuffer => "storage.buffer_size must be greater than 0"
  | noOutputDirectory => "output.dir must not be empty"
  | noBlockPrefix => "naming.block_prefix must not be empty"
  | emptyMapping => "naming.map entries must have non-empty keys and values"
  | separatorInMapping value =>
    "naming.map value '" ++ value ++ "' must not contain path separators"
  | unknownPolicy text =>
    "output.on_collision must be one of: error, warn (got '" ++ text ++ "')"

/-- The wording of a failure, with the place that it concerns. -/
def Failure.message : Failure → String
  | storeOpen path fault => "Cannot open checkpoint '" ++ path ++ "': " ++ fault.describe
  | tensorRead name fault => "Failed to read tensor '" ++ name ++ "': " ++ fault.describe
  | shape name fault => "Shape error in tensor '" ++ name ++ "': " ++ fault.describe
  | write path fault => "Write error at '" ++ path ++ "': " ++ fault.describe
  | collision name => "Output name '" ++ name ++ "' was already written in this run"
  | config fault => "Configuration error: " ++ fault.describe

/-- The kind of a failure, as one word. -/
def Failure.kind : Failure → String
  | storeOpen .. => "StoreOpen"
  | tensorRead .. => "TensorRead"
  | shape .. => "Shape"
  | write .. => "Write"
  | collision _ => "Collision"
  | config _ => "Config"

/-! ## Failures that pass on another error -/

/-- The cause lies in an error of the file system. -/
def OpenFault.hasSource : OpenFault → Bool
  | cannotOpen | cannotOpenCheckpoint | cannotMapCheckpoint | cannotReadCheckpoint => true
  | missingOutput | notDirectory | badHeader _ | rehearsed _ => false

/-- The cause lies in an error of the file system or of a writer. -/
def WriteFault.hasSource : WriteFault → Bool
  | invalidName _ | tooLongForHeader _ | rehearsed _ => false
  | dataRefused | baseDirectory | parentDirectories | createFile | deleteDirectory | deleteFile
  | renameTo _ | createDirectories => true

/-- The cause lies in an error of the file system or of the reader of configurations. -/
def ConfigFault.hasSource : ConfigFault → Bool
  | unreadable _ | notUnderstood => true
  | zeroBuffer | noOutputDirectory | noBlockPrefix | emptyMapping | separatorInMapping _
  | unknownPolicy _ => false

/-- Whether a failure carries the error that caused it. Kinds that never carry one have none to
tell of. -/
def Failure.source? : Failure → Option Bool
  | storeOpen _ fault => some fault.hasSource
  | write _ fault => some fault.hasSource
  | config fault => some fault.hasSource
  | tensorRead .. | shape .. | collision _ => none

end FlatWeights
