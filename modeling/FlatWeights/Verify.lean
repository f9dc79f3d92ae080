import FlatWeights.Storage
import FlatWeights.Text.Cut
import FlatWeights.WeightFile

/-!
Checking a directory of weight files: the header of every file has to ask for exactly the bytes that
follow it. Hidden files and files of other kinds are passed over.
-/

set_option autoImplicit false

namespace FlatWeights

/-- What a check has found: the names of the files, and the bytes after their headers. -/
structure VerifyReport where
  files : List String := []
  payloadBytes : Nat := 0
deriving DecidableEq, Repr

namespace VerifyReport

/-- The output name of a directory entry: a visible entry whose name ends in `.bin`, with
something before it. -/
def stem? (entry : String) : Option String :=
  match Text.after? ".bin".toList.reverse entry.toList.reverse with
  | none => none
  | some stem =>
    if stem = [] ∨ entry.toList.head? = some '.' then none
    else some (String.ofList stem.reverse)

/-- The number of bytes after the header of a file, if they are as many as the header asks for. -/
def payloadOf (name : String) (content : Bytes) : Except Stop Nat :=
  if content.length < WeightFile.headerLength then
    .error (.failed (.tensorRead name (.shorterThanHeader content.length)))
  else match WeightFile.readHeader content with
    | .error _ => .error (.failed (.tensorRead name .headerCutShort))
    | .ok (header, payload) =>
      match header.payloadLength? with
      | none => .error .overflow
      | some expected =>
        if expected = payload.length then .ok payload.length
        else .error (.failed (.tensorRead name
          (.payloadLength header.lengths expected payload.length)))

/-- Check what was opened under an output name. -/
def check (name : String) : Opened → Except Stop Nat
  | .directory => .error (.failed (.tensorRead name .headerOfDirectory))
  | .file content => payloadOf name content

/-- A report with one more file, if the bytes of all files together are a size. -/
def add (report : VerifyReport) (name : String) (payload : Nat) : Except Stop VerifyReport :=
  match Size.add? report.payloadBytes payload with
  | none => .error .overflow
  | some total => .ok ⟨report.files ++ [name], total⟩

variable {m : Type → Type} [Monad m]

/-- Check the entries of a directory in turn, from a report on those before them. -/
def extend (storage : Storage m) (dir : Path) :
    List String → VerifyReport → Run m VerifyReport
  | [], report => return report
  | entry :: rest, report => do
    match stem? entry with
    | none => extend storage dir rest report
    | some name =>
      let payload ← ExceptT.mk (pure (check name (← storage.openRead (dir.join entry))))
      extend storage dir rest (← ExceptT.mk (pure (report.add name payload)))

/-- Check every weight file of a directory. -/
def ofDirectory (storage : Storage m) (dir : Path) : Run m VerifyReport := do
  if !(← storage.contains dir) then Run.fail (.storeOpen dir .missingOutput)
  extend storage dir (← storage.list dir) {}

end VerifyReport

end FlatWeights
