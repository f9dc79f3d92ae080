import FlatWeights.Config
import FlatWeights.Storage
import FlatWeights.WeightFile

/-!
The emitter writes the tensors of one run. Files are first written to a hidden directory inside the
output directory and are moved into the output directory together, when the run is committed; a
run that is aborted leaves nothing behind. The emitter remembers the names that were written, so
that a name written twice is noticed, and counts files and bytes.

The state of the emitter is kept when an operation fails, as the caller goes on with it.
-/

set_option autoImplicit false

namespace FlatWeights

/-- What was written in a run. -/
structure EmitStats where
  files : Nat := 0
  bytes : Nat := 0
  /-- Names for which the output directory already had something. -/
  overwritten : Nat := 0
deriving DecidableEq, Repr

/-- The state of a run: where it writes to, and what it has written. -/
structure Emitter where
  output : OutputSettings
  written : NameSet := .empty
  stats : EmitStats := {}
deriving Repr

/-- A computation that may stop early and leaves the state of the run as it was then. -/
abbrev Emit (m : Type → Type) := ExceptT Stop (StateT Emitter m)

/-- Names of files stay inside the directory, are visible, and are not empty. -/
def validOutputName (name : String) : Bool :=
  name != "" && !(name.toList.head? == some '.') &&
    !(name.toList.any fun c => c == '/' || c == '\\' || c == '\x00')

namespace Emitter

variable {m : Type → Type} [Monad m]

/-! ## Places -/

/-- The name of the file for an output name. -/
def fileName (name : String) : String := name ++ ".bin"

/-- The hidden directory that holds the files of a run until it is committed. -/
def staging (output : OutputSettings) : Path := output.dir.join ".staging"

/-- Where the file for an output name ends up. -/
def finalPath (output : OutputSettings) (name : String) : Path := output.dir.join (fileName name)

/-- Where the file for an output name waits for the end of the run. -/
def stagedPath (output : OutputSettings) (name : String) : Path :=
  (staging output).join (fileName name)

/-- Where a file is written before it takes its place among the staged ones. -/
def tempPath (output : OutputSettings) (name : String) : Path :=
  (staging output).join ("." ++ fileName name ++ ".tmp")

/-! ## The run -/

/-- A computation of the storage, within a run. -/
def perform {α : Type} (x : Run m α) : Emit m α := ExceptT.mk (StateT.lift x.run)

/-- The outcome of a computation of the storage, also if it stopped early. -/
def attempt {α : Type} (x : Run m α) : Emit m (Except Stop α) :=
  ExceptT.mk (StateT.lift (do return .ok (← x.run)))

/-- Begin a run: make the output directory and an empty staging directory, whatever an earlier run
has left in its place. -/
def start (storage : Storage m) (output : OutputSettings) : Run m Emitter := do
  storage.createDirs output.dir
  if ← storage.contains (staging output) then storage.delete (staging output)
  storage.createDirs (staging output)
  return { output }

/-- Note an output name. A name that was noted before is a collision, which the settings may
forgive; for a new one, count whether the output directory already has its file. -/
def claim (storage : Storage m) (name : String) : Emit m Unit := do
  let run ← getThe Emitter
  if run.written.contains name then
    match run.output.onCollision with
    | .error => throw (.failed (.collision name))
    | .warn => return ()
  -- The name counts as written from here on, whatever becomes of its file.
  set { run with written := run.written.add name }
  if ← perform (storage.contains (finalPath run.output name)) then
    modify fun run => { run with stats.overwritten := run.stats.overwritten + 1 }

/-- Write the file for an output name among the staged ones. An atomic write goes to a file of its
own, which is removed again if it failed, and takes its place afterwards. -/
def stage (storage : Storage m) (name : String) (pieces : List Bytes) : Emit m Unit := do
  let output := (← getThe Emitter).output
  if output.atomicWrites then
    match ← attempt (storage.write (tempPath output name) pieces) with
    | .error (.failed failure) =>
      -- The file may hold a part of the data; the first failure is the one that counts.
      let _ ← attempt (storage.delete (tempPath output name))
      throw (.failed failure)
    | .error .overflow => throw .overflow
    | .ok () => perform (storage.rename (tempPath output name) (stagedPath output name))
  else perform (storage.write (stagedPath output name) pieces)

/-- Count a file that was staged. -/
def record (header : WeightFile.Header) : Emit m Unit := do
  let run ← getThe Emitter
  let total? := do
    let payload ← header.payloadLength?
    let bytes ← Size.add? WeightFile.headerLength payload
    Size.add? run.stats.bytes bytes
  match total? with
  | none => throw .overflow
  | some total =>
    set { run with stats := { run.stats with files := run.stats.files + 1, bytes := total } }

/-- Stage a tensor. The answer is the path that its file will have once the run is committed. -/
def emit (storage : Storage m) (tensor : OutputTensor) : Emit m Path := do
  let final := finalPath (← getThe Emitter).output tensor.name
  if !validOutputName tensor.name then
    throw (.failed (.write final (.invalidName tensor.name)))
  match WeightFile.Header.ofDims? tensor.dims with
  | none => throw (.failed (.write final (.tooLongForHeader tensor.dims)))
  | some header =>
    claim storage tensor.name
    stage storage tensor.name (WeightFile.pieces header tensor.data)
    record header
    return final

/-- Move the staged files of some names into the output directory. -/
def publish (storage : Storage m) (output : OutputSettings) : List String → Run m Unit
  | [] => return ()
  | name :: rest => do
    storage.rename (stagedPath output name) (finalPath output name)
    publish storage output rest

/-- End the run: move every staged file into the output directory, in the order of the names, and
remove the staging directory. -/
def commit (storage : Storage m) : Emit m EmitStats := do
  let run ← getThe Emitter
  perform (publish storage run.output run.written.toList)
  perform (storage.delete (staging run.output))
  return run.stats

/-- Discard everything staged. What stands in the way of that is not reported. -/
def abort (storage : Storage m) (output : OutputSettings) : m Unit := do
  let discard : Run m Unit := do
    if ← storage.contains (staging output) then storage.delete (staging output)
  let _ ← discard.run

end Emitter

end FlatWeights
