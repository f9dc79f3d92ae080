import FlatWeights.Failure
import FlatWeights.FileSystem
import FlatWeights.Size

/-!
A storage: a place for weight files, with the operations that writing and checking them needs.
`Storage.below` is the storage of the files below a directory of a file system. Operations name a
path as they were given it where the storage itself refuses, and the full path where the file
system does.

A file is read and written through a buffer, which is made once the file is open. A buffer of
`Size.bufferLimit` bytes or more cannot be made, and the computation stops there.
-/

set_option autoImplicit false

namespace FlatWeights

/-- A computation that may stop early. -/
abbrev Run (m : Type → Type) := ExceptT Stop m

/-- End a computation with a failure. -/
def Run.fail {m : Type → Type} [Monad m] {α : Type} (failure : Failure) : Run m α :=
  throw (.failed failure)

/-- A computation that cannot stop early, as one that could. -/
def Run.always {m : Type → Type} [Monad m] {α : Type} (x : m α) : Run m α := ExceptT.lift x

/-- The operations of a storage. -/
structure Storage (m : Type → Type) where
  /-- Something is stored at a path. -/
  contains : Path → Run m Bool
  /-- What is stored at a path, for reading. -/
  openRead : Path → Run m Opened
  /-- Store the given pieces one after the other at a path, in place of what is there. Pieces that
  were taken before a failure remain stored. -/
  write : Path → List Bytes → Run m Unit
  /-- Remove what is stored at a path, with everything below it. -/
  delete : Path → Run m Unit
  /-- The names of what is stored directly below a path, in increasing order. -/
  list : Path → Run m (List String)
  /-- Move what is stored at the first path to the second, in place of what is there. -/
  rename : Path → Path → Run m Unit
  /-- Make a directory and those that lead to it, as far as they are missing. -/
  createDirs : Path → Run m Unit

namespace Storage

variable {m : Type → Type} [Monad m]

/-- Make the buffer of a file that was opened, unless that many bytes cannot be had. -/
def makeBuffer (size : Nat) : Run m Unit :=
  if size < Size.bufferLimit then return () else throw .overflow

/-- A buffer below the limit is made. -/
theorem makeBuffer_of_lt {size : Nat} (h : size < Size.bufferLimit) :
    (makeBuffer size : Run m Unit) = pure () := if_pos h

/-- A larger one ends the program. -/
theorem makeBuffer_of_le {size : Nat} (h : Size.bufferLimit ≤ size) :
    (makeBuffer size : Run m Unit) = throw .overflow := if_neg (Nat.not_lt.2 h)

variable [FileSystem m]

/-- Continue if a request was granted, and fail otherwise. -/
def require (granted : m Bool) (failure : Failure) : Run m Unit := do
  if ← Run.always granted then return () else Run.fail failure

/-- The storage of the files below a directory, which are read and written through buffers of the
given size. -/
def below (base : Path) (bufferSize : Nat) : Storage m where
  contains p := Run.always (FileSystem.exists (base.join p))
  openRead p := do
    let full := base.join p
    match ← Run.always (FileSystem.open? full) with
    | some opened => do
      makeBuffer bufferSize
      return opened
    | none => Run.fail (.storeOpen full .cannotOpen)
  write p pieces := do
    let full := base.join p
    match full.parent? with
    | none => pure ()
    | some parent =>
      if !(← Run.always (FileSystem.exists parent)) then
        require (FileSystem.makeDirAll parent) (.write parent .parentDirectories)
    require (FileSystem.create full) (.write full .createFile)
    makeBuffer bufferSize
    Run.always (FileSystem.fill full pieces.flatten)
  delete p := do
    let full := base.join p
    if ← Run.always (FileSystem.isDir full) then
      require (FileSystem.removeDir full) (.write full .deleteDirectory)
    else require (FileSystem.removeFile full) (.write full .deleteFile)
  list p := do
    let full := base.join p
    match ← Run.always (FileSystem.kind? full) with
    | none => return []
    | some .file => Run.fail (.storeOpen full .notDirectory)
    | some .directory => Run.always (FileSystem.names full)
  rename source target := do
    let full := base.join source
    let fullTarget := base.join target
    require (FileSystem.rename full fullTarget) (.write full (.renameTo fullTarget))
  createDirs p := do
    let full := base.join p
    require (FileSystem.makeDirAll full) (.write full .createDirectories)

/-- The storage of the files below a directory, which is made if nothing stands there. -/
def openBelow (base : Path) (bufferSize : Nat) : Run m (Storage m) := do
  if !(← Run.always (FileSystem.exists base)) then
    require (FileSystem.makeDirAll base) (.write base .baseDirectory)
  return below base bufferSize

end Storage

end FlatWeights
