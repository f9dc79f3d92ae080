import FlatWeights.CommandLine

/-!
The program on a real file system.
-/

set_option autoImplicit false

namespace FlatWeights.Main

/-- A request that is refused when it raises an error. -/
def granted (request : IO Unit) : IO Bool := do
  try
    request
    return true
  catch _ => return false

/-- What a request gives, if it raises no error. -/
def given? {α : Type} (request : IO α) : IO (Option α) := do
  try
    return some (← request)
  catch _ => return none

/-- The type of what stands at a path. The empty path leads nowhere. -/
def type? (p : Path) : IO (Option IO.FS.FileType) := do
  if p = "" then return none
  else given? do
    let place ← IO.FS.realPath p
    return (← place.metadata).type

/-- The names of the entries of a directory. -/
def entryNames (p : Path) : IO (List String) := do
  let place ← IO.FS.realPath p
  let entries ← place.readDir
  return entries.toList.map fun entry => entry.fileName

instance : FileSystem IO where
  kind? p := do
    return (← type? p).map fun type => if type == .dir then .directory else .file
  open? p := do
    match ← type? p with
    | none => return none
    | some .dir => return some .directory
    | some _ => return (← given? (IO.FS.readBinFile p)).map fun content => .file content.toList
  create p := if p = "" then return false else granted (IO.FS.writeBinFile p ByteArray.empty)
  fill p content := IO.FS.writeBinFile p ⟨content.toArray⟩
  makeDir p := do
    try
      IO.FS.createDir p
      return .made
    catch
      | .noFileOrDirectory .. => return .noParent
      | _ => return .refused
  removeFile p := granted (IO.FS.removeFile p)
  removeDir p := granted (IO.FS.removeDirAll p)
  names p := do
    return (NameSet.ofNames ((← given? (entryNames p)).getD [])).toList
  rename source target := granted (IO.FS.rename source target)

end FlatWeights.Main

open FlatWeights in
/-- Run the program with its arguments, print what it has to say, and end with its status. -/
def main (args : List String) : IO UInt32 := do
  let env : Environment ← Environment.names.filterMapM fun name => do
    return (← IO.getEnv name).map fun value => (name, value)
  let ending : CommandLine.Ending ← CommandLine.run args env
  IO.print ending.output
  if let some failure := ending.failure then IO.eprintln s!"Error: {failure.message}"
  if ending.exit = 2 then IO.eprint CommandLine.usage
  return UInt32.ofNat ending.exit
