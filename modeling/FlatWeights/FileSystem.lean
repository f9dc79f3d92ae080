import FlatWeights.Bytes
import FlatWeights.Path

/-!
What a program asks of a file system. Every request answers with a value, also when it cannot be
granted, so that the same program runs on a real file system and on a file tree that is a value.

A file that was created takes the data that is written to it: `fill` has no answer, and neither have
the flush and the sync that end a write. Faults of the device, which could refuse these or any other
request without a reason in the tree, are left out.
-/

set_option autoImplicit false

namespace FlatWeights

/-- What stands at a path. -/
inductive FileKind where
  | file
  | directory
deriving DecidableEq, Repr

/-- What opening a path for reading gives. A directory can be opened, but not read. -/
inductive Opened where
  | file (content : Bytes)
  | directory
deriving DecidableEq, Repr

/-- The answer to the wish for a new directory. -/
inductive MakeDirAnswer where
  /-- The directory was made. -/
  | made
  /-- A directory on the way to it is missing. -/
  | noParent
  /-- Anything else that is in the way, the directory itself included. -/
  | refused
deriving DecidableEq, Repr

/-- Requests to a file system. A `Bool` says whether a request was granted. -/
class FileSystem (m : Type → Type) where
  /-- What stands at a path, if anything does. -/
  kind? : Path → m (Option FileKind)
  /-- The content of what stands at a path, if it can be opened. -/
  open? : Path → m (Option Opened)
  /-- Make an empty file, or make an existing file empty. -/
  create : Path → m Bool
  /-- Give a file that was created its content. -/
  fill : Path → Bytes → m Unit
  /-- Make one directory. -/
  makeDir : Path → m MakeDirAnswer
  /-- Remove a file. -/
  removeFile : Path → m Bool
  /-- Remove a directory with everything below it. -/
  removeDir : Path → m Bool
  /-- The names of the entries of a directory, in increasing order. -/
  names : Path → m (List String)
  /-- Move what stands at the first path to the second, in place of what stands there. -/
  rename : Path → Path → m Bool

namespace FileSystem

variable {m : Type → Type} [Monad m] [FileSystem m]

/-- Something stands at a path. -/
def «exists» (p : Path) : m Bool := do return (← kind? p).isSome

/-- A directory stands at a path. -/
def isDir (p : Path) : m Bool := do return (← kind? p) == some .directory

/-- Make a directory and those that lead to it, up to `bound` of them, as far as they are missing.
The root and the empty path are always there. -/
def makeDirsUpTo : Nat → Path → m Bool
  | 0, _ => return false
  | bound + 1, p =>
    match p.parent? with
    | none => return true
    | some parent => do
      match ← makeDir p with
      | .made => return true
      | .refused => isDir p
      | .noParent =>
        if ← makeDirsUpTo bound parent then
          match ← makeDir p with
          | .made => return true
          | _ => isDir p
        else return false

/-- Make a directory and those that lead to it, as far as they are missing. Each has fewer pieces
than the one it leads to, so the number of pieces bounds them. -/
def makeDirAll (p : Path) : m Bool := makeDirsUpTo (p.pieces.length + 1) p

end FileSystem

end FlatWeights
