import FlatWeights.FileSystem

/-!
Reading what was opened from any position on. A position may lie after the end, where nothing is
left to read, but never before the start, and it fits in eight bytes with a sign.
-/

set_option autoImplicit false

namespace FlatWeights

/-- What was opened, and the position of the next byte to be read. -/
structure Reader where
  opened : Opened
  position : Nat := 0
deriving DecidableEq, Repr

namespace Reader

/-- What a distance is counted from. -/
inductive Origin where
  | start
  | finish
  | current
deriving DecidableEq, Repr

/-- A reader at the start of what was opened. -/
def ofOpened (opened : Opened) : Reader := { opened }

/-- The number of bytes of a file. -/
def size (r : Reader) : Nat :=
  match r.opened with
  | .file content => content.length
  | .directory => 0

/-- At most `n` bytes from the position on. A directory cannot be read. -/
def read (r : Reader) (n : Nat) : Option (Bytes × Reader) :=
  match r.opened with
  | .file content =>
    let bytes := (content.drop r.position).take n
    some (bytes, { r with position := r.position + bytes.length })
  | .directory => none

/-- The last position. -/
def lastPosition : Int := Int64.maxValue.toInt

/-- Pass to the position at a distance from an origin, unless it lies before the start or after the
last position. -/
def seek (r : Reader) (origin : Origin) (distance : Int) : Option Reader :=
  let base : Int := match origin with
    | .start => 0
    | .finish => r.size
    | .current => r.position
  let target := base + distance
  if 0 ≤ target ∧ target ≤ lastPosition then some { r with position := target.toNat } else none

end Reader

end FlatWeights
