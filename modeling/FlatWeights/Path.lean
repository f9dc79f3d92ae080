/-!
Paths as they are written. A path is a text whose pieces are divided by slashes; it is kept as it
was given, since messages show it, and it is not brought to any normal form. `steps` is what a path
asks of the one who follows it, and `parent?` is the directory that leads to it.
-/

set_option autoImplicit false

namespace FlatWeights

/-- A path as it is written. -/
abbrev Path := String

/-- What one piece of a path asks for. -/
inductive Step where
  /-- Remain in the directory. -/
  | stay
  /-- Pass to the directory above. -/
  | up
  /-- Pass to the entry of that name. -/
  | down (name : String)
deriving DecidableEq, Repr

namespace Path

/-- The pieces of a text between its slashes; there is always at least one. -/
def splitSlash : List Char → List (List Char)
  | [] => [[]]
  | c :: rest =>
    if c = '/' then [] :: splitSlash rest
    else match splitSlash rest with
      | [] => [[c]]
      | piece :: pieces => (c :: piece) :: pieces

/-- The pieces of a path. -/
def pieces (p : Path) : List String := (splitSlash p.toList).map String.ofList

/-- The step that a piece asks for. -/
def stepOf (piece : String) : Step :=
  if piece = "" ∨ piece = "." then .stay else if piece = ".." then .up else .down piece

/-- The steps of a path, in order. A slash at the end counts as staying, so it asks for a
directory. -/
def steps (p : Path) : List Step := (pieces p).map stepOf

/-- The path begins at the root. -/
def isAbsolute (p : Path) : Bool := p.toList.head? == some '/'

/-- A path below a directory. An absolute path takes the place of the directory. -/
def join (directory p : Path) : Path :=
  if isAbsolute p then p
  else if directory = "" ∨ directory.toList.getLast? = some '/' then directory ++ p
  else directory ++ "/" ++ p

/-! ## The way to a path -/

/-- Pieces, last one first, without those at the end that ask for staying. The first piece of a
path always remains. -/
def dropStays : List String → List String
  | [] => []
  | [first] => [first]
  | piece :: earlier => if stepOf piece = .stay then dropStays earlier else piece :: earlier

/-- The path that consists of pieces, last one first. A single empty piece is the root. -/
def ofPieces (pieces : List String) : Path :=
  if pieces = [""] then "/" else String.intercalate "/" pieces.reverse

/-- The directory that holds what a path leads to, as the beginning of the path. The root and the
empty path have none. -/
def parent? (p : Path) : Option Path :=
  match dropStays (pieces p).reverse with
  | [] => none
  | [only] => if only = "" then none else some ""
  | _ :: earlier => some (ofPieces (dropStays earlier))

/-- A path without the slashes at its end. -/
def withoutEndSlashes (p : Path) : Path :=
  String.ofList (p.toList.reverse.dropWhile (· == '/')).reverse

/-- The last piece of a path, slashes at its end apart, is the name of an entry. -/
def endsInName (p : Path) : Bool :=
  match (pieces p).reverse.dropWhile (· == "") with
  | piece :: _ => piece != "." && piece != ".."
  | [] => false

end Path

end FlatWeights
