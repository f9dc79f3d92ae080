import FlatWeights.FileSystem
import FlatWeights.FileSystem.Tree

/-!
A file system that is a value: a file tree, the directory from which paths are followed, and the
longest name and path that it takes. There are no links and no permissions, there is room for all
data, and no device fails; a request is refused only for what stands in the tree or for the form of
the path.
-/

set_option autoImplicit false

namespace FlatWeights

/-- The directory from which paths are followed. -/
inductive WorkingDir where
  /-- A directory of the tree. -/
  | standing (l : Location)
  /-- A directory that is no longer in the tree. It lies `depth` directories below one that was
  removed from the directory at `above`. They stay empty for good, and only what lies above them can
  be reached. -/
  | removed (depth : Nat) (above : Location)
deriving DecidableEq, Repr

namespace WorkingDir

/-- The directory of the tree from which a way can go on. -/
def ground : WorkingDir → Location
  | standing l => l
  | removed _ above => above

/-- How many steps up lead to the ground. -/
def distance : WorkingDir → Nat
  | standing _ => 0
  | removed depth _ => depth + 1

@[simp] theorem ground_standing (l : Location) : (standing l).ground = l := rfl

@[simp] theorem ground_removed (depth : Nat) (above : Location) :
    (removed depth above).ground = above := rfl

@[simp] theorem distance_standing (l : Location) : (standing l).distance = 0 := rfl

@[simp] theorem distance_removed (depth : Nat) (above : Location) :
    (removed depth above).distance = depth + 1 := rfl

/-- The working directory after a location was erased with everything below it. -/
def afterErase (l : Location) (w : WorkingDir) : WorkingDir :=
  if l <:+ w.ground then removed (w.distance + (w.ground.length - l.length)) l.tail else w

/-- The working directory after everything below a location was removed. -/
def afterClear (l : Location) (w : WorkingDir) : WorkingDir :=
  if l <:+ w.ground ∧ w.ground ≠ l then
    removed (w.distance + (w.ground.length - (l.length + 1))) l
  else w

/-- The working directory after one place was moved to another; what was there is gone. -/
def afterMove (source target : Location) (w : WorkingDir) : WorkingDir :=
  match w.afterErase target with
  | standing here => standing (FileTree.relocate source target here)
  | removed depth above => removed depth (FileTree.relocate source target above)

end WorkingDir

/-- A file tree with the directory that paths start from. -/
structure Disk where
  tree : FileTree
  /-- The directory that a path starts from unless it begins at the root. -/
  here : WorkingDir
  /-- The most bytes that a name may have, if there is such a bound. -/
  longestName : Option Nat := some 255
  /-- The most bytes that a path may have, if there is such a bound. -/
  longestPath : Option Nat := some 4095
deriving Repr

namespace Disk

/-- Why a path leads to no place in the tree. -/
inductive Astray where
  /-- A directory on the way is missing. -/
  | missing
  /-- Something on the way is no directory. -/
  | notDirectory
  /-- The path, or a name on the way, cannot be one. -/
  | badName
  /-- It leads to a directory that was removed from the tree. -/
  | outside
deriving DecidableEq, Repr

/-- A text that the file system takes: it has at most as many bytes as a bound allows, and does not
hold the null character. -/
def isText (bound : Option Nat) (text : String) : Bool :=
  bound.all (text.utf8ByteSize ≤ ·) && !text.toList.contains '\x00'

/-- A name that an entry may have. -/
def takesName (d : Disk) (name : String) : Bool := isText d.longestName name

/-- A path that can be followed, wherever it leads. -/
def takesPath (d : Disk) (p : Path) : Bool := isText d.longestPath p

/-- The location that steps lead to from a place at which `node` stands. Each step is taken from a
directory; what the last one leads to may be missing. -/
def walkFrom (d : Disk) (start : Location) (node : Option Node) :
    List Step → Except Astray Location
  | [] => .ok start
  | step :: rest =>
    match node with
    | none => .error .missing
    | some (.file _) => .error .notDirectory
    | some (.directory members) =>
      match step with
      | .stay => walkFrom d start node rest
      | .up => walkFrom d start.tail (d.tree.node? start.tail) rest
      | .down name =>
        if d.takesName name then walkFrom d (name :: start) (members.lookup name) rest
        else .error .badName

/-- The location that steps lead to from another one. -/
def walk (d : Disk) (start : Location) (steps : List Step) : Except Astray Location :=
  d.walkFrom start (d.tree.node? start) steps

/-- The location that steps lead to from a directory that is no longer in the tree. -/
def walkOutside (d : Disk) (above : Location) : Nat → List Step → Except Astray Location
  | _, [] => .error .outside
  | depth, .stay :: rest => walkOutside d above depth rest
  | depth + 1, .up :: rest => walkOutside d above depth rest
  | 0, .up :: rest =>
    if d.tree.find? above = some .directory then d.walk above rest else .error .missing
  | _, .down name :: _ => .error (if d.takesName name then .missing else .badName)

/-- The location that a path leads to. The empty path leads nowhere. -/
def locate (d : Disk) (p : Path) : Except Astray Location :=
  if p = "" then .error .missing
  else if !d.takesPath p then .error .badName
  else if p.isAbsolute then d.walk [] p.steps
  else match d.here with
    | .standing l => d.walk l p.steps
    | .removed depth above => d.walkOutside above depth p.steps

/-- The location that a path leads to without the slashes at its end, which do not matter where a
directory is put in place. -/
def locateDir (d : Disk) (p : Path) : Except Astray Location :=
  if !d.takesPath p then .error .badName
  else if p.withoutEndSlashes = "" then d.locate p
  else d.locate p.withoutEndSlashes

/-- What a path leads to, if it leads anywhere. -/
def find? (d : Disk) (p : Path) : Option Entry :=
  match d.locate p with
  | .ok l => d.tree.find? l
  | .error .outside => some .directory
  | .error _ => none

theorem walk_nil (d : Disk) (start : Location) : d.walk start [] = .ok start := rfl

/-- A step is taken from what the tree has at a location. -/
theorem walk_cons (d : Disk) (start : Location) (step : Step) (rest : List Step) :
    d.walk start (step :: rest) =
      match d.tree.find? start with
      | none => .error .missing
      | some (.file _) => .error .notDirectory
      | some .directory =>
        match step with
        | .stay => d.walk start rest
        | .up => d.walk start.tail rest
        | .down name =>
          if d.takesName name then d.walk (name :: start) rest else .error .badName := by
  rw [walk, FileTree.find?]
  cases hn : d.tree.node? start with
  | none => rfl
  | some node =>
    cases node with
    | file content => rfl
    | directory members =>
      cases step with
      | stay => simp only [walkFrom, Option.map_some, Node.entry, walk, hn]
      | up => rfl
      | down name =>
        have hm : d.tree.node? (name :: start) = members.lookup name := by
          have ha := d.tree.node?_append [name] start
          simpa [hn, Node.follow] using ha
        simp only [walkFrom, Option.map_some, Node.entry, walk, hm]

/-! ## Requests -/

/-- What stands at a path. -/
def kind? (d : Disk) (p : Path) : Option FileKind :=
  (d.find? p).map fun
    | .file _ => .file
    | .directory => .directory

/-- The content of what stands at a path. -/
def open? (d : Disk) (p : Path) : Option Opened :=
  (d.find? p).map fun
    | .file content => .file content
    | .directory => .directory

/-- Put an empty file at a path, unless a directory stands there. -/
def create (d : Disk) (p : Path) : Bool × Disk :=
  match d.locate p with
  | .error _ => (false, d)
  | .ok l =>
    if d.tree.find? l = some .directory then (false, d)
    else (true, { d with tree := d.tree.insert l (.file []) })

/-- Give the file at a path a new content. -/
def fill (d : Disk) (p : Path) (content : Bytes) : Disk :=
  match d.locate p with
  | .error _ => d
  | .ok l =>
    match d.tree.find? l with
    | some (.file _) => { d with tree := d.tree.insert l (.file content) }
    | _ => d

/-- Put a new directory at a path. -/
def makeDir (d : Disk) (p : Path) : MakeDirAnswer × Disk :=
  match d.locateDir p with
  | .error .missing => (.noParent, d)
  | .error _ => (.refused, d)
  | .ok l =>
    if (d.tree.find? l).isSome then (.refused, d)
    else (.made, { d with tree := d.tree.insert l .directory })

/-- Remove the file at a path. -/
def removeFile (d : Disk) (p : Path) : Bool × Disk :=
  match d.locate p with
  | .error _ => (false, d)
  | .ok l =>
    match d.tree.find? l with
    | some (.file _) => (true, { d with tree := d.tree.erase l })
    | _ => (false, d)

/-- Remove the directory at a path with everything below it. It is emptied first, and then the path
is followed again. Where it has led through the directory itself it leads nowhere any more, and
nothing is left to be done; where it does not end in the name of an entry, the request counts as
refused, and the directory stays. -/
def removeDir (d : Disk) (p : Path) : Bool × Disk :=
  match d.locate p with
  | .error _ => (false, d)
  | .ok l =>
    if d.tree.find? l = some .directory then
      let emptied : Disk :=
        { d with tree := d.tree.clear l, here := d.here.afterClear l }
      match emptied.locate p with
      | .error _ => (true, emptied)
      | .ok _ =>
        if p.endsInName then
          (true, { emptied with tree := emptied.tree.erase l, here := emptied.here.afterErase l })
        else (false, emptied)
    else (false, d)

/-- The names of the entries of the directory at a path. -/
def names (d : Disk) (p : Path) : List String :=
  match d.locate p with
  | .error _ => []
  | .ok l => if d.tree.find? l = some .directory then d.tree.names l else []

/-- What lies below the directory at a path, with locations as seen from there. -/
def below (d : Disk) (p : Path) : List (Location × Entry) :=
  match d.locate p with
  | .error _ => []
  | .ok l => d.tree.below l

/-- What stands at `source` may take the place of what stands at `target`: a file that of a file, a
directory that of an empty directory, and neither that of something it lies in or that lies in
it. -/
def mayReplace (d : Disk) (source target : Location) : Bool :=
  match d.tree.find? source, d.tree.find? target with
  | some (.file _), some (.file _) | some (.file _), none => true
  | some .directory, none => !(source.isSuffixOf target)
  | some .directory, some .directory =>
    (d.tree.names target).isEmpty && !(source.isSuffixOf target)
  | _, _ => false

/-- Move what stands at `source` to `target`. Both have to be named by an entry of a directory, and
the directory of the target has to be there. Nothing happens where both are the same. -/
def rename (d : Disk) (source target : Path) : Bool × Disk :=
  if !(source.endsInName && target.endsInName) then (false, d)
  else
    -- Only a directory may be moved to a name with a slash at its end.
    let isDir := d.kind? source = some .directory
    match d.locate source, if isDir then d.locateDir target else d.locate target with
    | .ok a, .ok b =>
      if (d.tree.find? a).isNone then (false, d)
      else if a = b then (true, d)
      else if d.mayReplace a b then
        (true, { d with tree := d.tree.move a b, here := d.here.afterMove a b })
      else (false, d)
    | _, _ => (false, d)

instance : FileSystem (StateM Disk) where
  kind? p := do return (← get).kind? p
  open? p := do return (← get).open? p
  create p := do
    let (granted, d) := (← get).create p
    set d
    return granted
  fill p content := modify (·.fill p content)
  makeDir p := do
    let (answer, d) := (← get).makeDir p
    set d
    return answer
  removeFile p := do
    let (granted, d) := (← get).removeFile p
    set d
    return granted
  removeDir p := do
    let (granted, d) := (← get).removeDir p
    set d
    return granted
  names p := do return (← get).names p
  rename source target := do
    let (granted, d) := (← get).rename source target
    set d
    return granted

end Disk

end FlatWeights
