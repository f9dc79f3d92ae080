import FlatWeights.Checkpoint
import FlatWeights.Emitter
import FlatWeights.Progress
import FlatWeights.Resolver

/-!
The conversion of a checkpoint: each tensor is read, resolved and staged before the next one is
read. Only when all are staged is the output committed; if anything fails before, what was staged is
discarded and the output directory stays as it was.
-/

set_option autoImplicit false

namespace FlatWeights

/-- The totals of one run. -/
structure ConversionReport where
  tensorsRead : Nat := 0
  /-- Tensors for which nothing was written. -/
  tensorsDropped : Nat := 0
  filesWritten : Nat := 0
  bytesWritten : Nat := 0
  /-- Names for which the output directory already had a file. -/
  overwritten : Nat := 0
deriving DecidableEq, Repr

/-- A run in progress: what is staged, the totals of the tensors, and how far it has come. -/
structure Conversion where
  emitter : Emitter
  tensorsRead : Nat := 0
  tensorsDropped : Nat := 0
  /-- The positions that were reached, each with the expected total, the latest first. -/
  milestones : List (Nat × Nat) := []
deriving Repr

/-- What became of a run, and the positions that it reached, in order. -/
structure ConversionOutcome where
  result : Except Stop ConversionReport
  milestones : List (Nat × Nat)

namespace Conversion

variable {m : Type → Type} [Monad m]

/-- The totals so far. -/
def report (run : Conversion) : ConversionReport where
  tensorsRead := run.tensorsRead
  tensorsDropped := run.tensorsDropped
  filesWritten := run.emitter.stats.files
  bytesWritten := run.emitter.stats.bytes
  overwritten := run.emitter.stats.overwritten

/-- The run with one more tensor that gave the given outputs. -/
def counted (run : Conversion) (outputs : List OutputTensor) : Conversion :=
  { run with
    tensorsRead := run.tensorsRead + 1
    tensorsDropped := run.tensorsDropped + if outputs.isEmpty then 1 else 0 }

/-- Stage tensors in turn. -/
def emitAll (storage : Storage m) : List OutputTensor → Emit m Unit
  | [] => return ()
  | tensor :: rest => do
    let _ ← Emitter.emit storage tensor
    emitAll storage rest

/-- Read, resolve and stage the tensor of one key, and note the position that was reached. -/
def convertKey (storage : Storage m) (naming : Naming) (checkpoint : Checkpoint) (key : String)
    (milestone : Nat × Nat) (run : Conversion) : m (Except Stop Unit × Conversion) := do
  match checkpoint.get key >>= naming.resolve with
  | .error stop => return (.error stop, run)
  | .ok outputs =>
    let run := run.counted outputs
    let (result, emitter) ← (emitAll storage outputs).run.run run.emitter
    let run := { run with emitter }
    match result with
    | .error stop => return (.error stop, run)
    | .ok () => return (.ok (), { run with milestones := milestone :: run.milestones })

/-- Convert the tensors of the remaining keys, one after the other, up to the first that stops the
run. -/
def convertKeys (storage : Storage m) (naming : Naming) (checkpoint : Checkpoint) :
    List String → Progress (List String) → Conversion → m (Except Stop Unit × Conversion)
  | [], _, run => return (.ok (), run)
  | key :: rest, progress, run => do
    let (_, progress) := progress.next Source.exact
    let (result, run) ←
      convertKey storage naming checkpoint key (progress.position, progress.total) run
    match result with
    | .error stop => return (.error stop, run)
    | .ok () => convertKeys storage naming checkpoint rest progress run

/-- Convert a checkpoint into a storage. -/
def perform (storage : Storage m) (output : OutputSettings) (naming : Naming)
    (checkpoint : Checkpoint) : m ConversionOutcome := do
  match ← (Emitter.start storage output).run with
  | .error stop => return ⟨.error stop, []⟩
  | .ok emitter =>
    let progress := Progress.start Source.exact checkpoint.keys
    let (staged, run) ← convertKeys storage naming checkpoint checkpoint.keys progress { emitter }
    let committed : Except Stop EmitStats ← match staged with
      | .error stop => pure (.error stop)
      | .ok () => do
        let (result, _) ← (Emitter.commit storage).run.run run.emitter
        pure result
    let milestones := run.milestones.reverse
    match committed with
    -- A reported failure leaves no staged file behind.
    | .error (.failed failure) =>
      Emitter.abort storage output
      return ⟨.error (.failed failure), milestones⟩
    | .error .overflow => return ⟨.error .overflow, milestones⟩
    | .ok _ => return ⟨.ok run.report, milestones⟩

end Conversion

end FlatWeights
