import FlatWeights.Storage

/-!
Rehearsal of failures. A rehearsed storage passes its operations on to another one, keeps a log of
them, and fails on a plan: the nth call of an operation fails in place of doing anything, or the
nth file to be written takes only so many bytes.
-/

set_option autoImplicit false

namespace FlatWeights

/-- A failure that is planned for a storage. Calls are counted from 1, each operation by itself. -/
inductive PlannedFault where
  /-- That call of an operation fails. -/
  | call (call : StorageCall) (nth : Nat)
  /-- That file to be written takes at most `room` bytes. -/
  | room (nth : Nat) (room : Nat)
deriving DecidableEq, Repr

/-- What was asked of a rehearsed storage. -/
structure Rehearsal where
  /-- The calls with their paths, the latest first. -/
  log : List String := []
  /-- The operations of all calls so far. -/
  calls : List StorageCall := []
deriving Repr

namespace Storage

/-- Pieces that are taken where only so many bytes have room: those before the first one that does
not fit. -/
def fitting (room : Nat) : List Bytes → List Bytes
  | [] => []
  | piece :: rest =>
    if piece.length ≤ room then piece :: fitting (room - piece.length) rest else []

namespace Rehearsed

variable {m : Type → Type} [Monad m]

/-- A computation of the inner storage, within a rehearsal. -/
def inner {α : Type} (x : Run m α) : Run (StateT Rehearsal m) α := ExceptT.mk (StateT.lift x.run)

/-- Take note of a call; the answer is its number among the calls of its operation. -/
def note (call : StorageCall) (text : String) : Run (StateT Rehearsal m) Nat := do
  let earlier : Rehearsal ← Run.always get
  let now : Rehearsal := ⟨(call.word ++ " " ++ text) :: earlier.log, call :: earlier.calls⟩
  Run.always (set now)
  return now.calls.count call

/-- A planned failure of a call: those of reading are failures to open, the others to write. -/
def failure (call : StorageCall) (p : Path) : Failure :=
  match call with
  | .exists | .list | .openRead => .storeOpen p (.rehearsed call)
  | _ => .write p (.rehearsed call)

/-- Take note of a call, and fail if the plan says so. -/
def enter (plan : List PlannedFault) (call : StorageCall) (p : Path) (text : String) :
    Run (StateT Rehearsal m) Nat := do
  let nth ← note call text
  if plan.contains (.call call nth) then Run.fail (failure call p) else return nth

/-- The room that the plan leaves to the nth file to be written. -/
def roomOf? (plan : List PlannedFault) (nth : Nat) : Option Nat :=
  plan.findSome? fun
    | .room n room => if n = nth then some room else none
    | .call .. => none

end Rehearsed

open Rehearsed in
/-- A storage that passes on to another one, keeps a log, and fails on a plan. -/
def rehearsed {m : Type → Type} [Monad m] (plan : List PlannedFault) (storage : Storage m) :
    Storage (StateT Rehearsal m) where
  contains p := do
    let _ ← enter plan .exists p p
    inner (storage.contains p)
  openRead p := do
    let _ ← enter plan .openRead p p
    inner (storage.openRead p)
  write p pieces := do
    let nth ← enter plan .openWrite p p
    let taken := match roomOf? plan nth with
      | none => pieces
      | some room => fitting room pieces
    inner (storage.write p taken)
    if taken.length < pieces.length then Run.fail (.write p .dataRefused)
    let _ ← enter plan .finish p p
  delete p := do
    let _ ← enter plan .delete p p
    inner (storage.delete p)
  list p := do
    let _ ← enter plan .list p p
    inner (storage.list p)
  rename source target := do
    let _ ← enter plan .rename source (source ++ " -> " ++ target)
    inner (storage.rename source target)
  createDirs p := do
    let _ ← enter plan .createDirs p p
    inner (storage.createDirs p)

end Storage

end FlatWeights
