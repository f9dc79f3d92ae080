import FlatWeights.Toml.Value

/-!
Building tables from statements. A key of several parts passes through tables, which it makes where
they are missing; what a table came about by decides whether a key may pass through it or add to
it. A document is built from its headings and keys in order, and refused at the first statement
that would define something twice or add to a table that is closed.
-/

set_option autoImplicit false

namespace FlatWeights.Toml

/-- What passes through tables on its way. -/
inductive Passage where
  /-- The name in a heading. -/
  | heading
  /-- The parts of a key in the body of a table. -/
  | dottedKey
  /-- The parts of a key between braces. -/
  | inlineKey
deriving DecidableEq, Repr

namespace Passage

/-- The kind of the tables that are made on the way. -/
def makes : Passage → TableKind
  | heading => .implied
  | dottedKey => .dotted
  | inlineKey => .inlineDotted

/-- A table of that kind may be passed through. Braces close a table for everything outside them; a
key passes only through tables that were not headed. -/
def mayPass : Passage → TableKind → Bool
  | heading, .headed | heading, .implied | heading, .dotted => true
  | dottedKey, .implied | dottedKey, .dotted => true
  | inlineKey, .inlineDotted => true
  | _, _ => false

end Passage

namespace Entries

/-- Change the table at the end of a path. Missing tables on the way are made, and among tables
under one name the way leads through the last. -/
def editAt (passage : Passage) (edit : TableKind → Entries → Option Entries) :
    List String → TableKind → Entries → Option Entries
  | [], kind, entries => edit kind entries
  | key :: path, _, entries =>
    match entries.find? key with
    | none => do
      let inner ← editAt passage edit path passage.makes []
      return entries.append key (.table passage.makes inner)
    | some (.table kind inner) =>
      if passage.mayPass kind then do
        let inner ← editAt passage edit path kind inner
        return entries.replace key (.table kind inner)
      else none
    | some (.tables rows) =>
      match passage, rows.reverse with
      | .inlineKey, _ | _, [] => none
      | _, last :: earlier => do
        let inner ← editAt passage edit path .headed last
        return entries.replace key (.tables (inner :: earlier).reverse)
    | some _ => none

/-- A new entry, unless there is one of that key. -/
def define (key : String) (value : Value) (entries : Entries) : Option Entries :=
  if (entries.find? key).isSome then none else some (entries.append key value)

/-- Give a key its value. The last of several parts goes into a table that such keys have made, and
a single part into one that they have not. -/
def assign (passage : Passage) (path : List String) (key : String) (value : Value)
    (kind : TableKind) (entries : Entries) : Option Entries :=
  editAt passage
    (fun kind entries =>
      if (kind = .dotted ∨ kind = .inlineDotted) ↔ path ≠ [] then define key value entries
      else none)
    path kind entries

/-- Give a table its heading. The name must be new, or have only been passed through by other
headings. -/
def head (key : String) (entries : Entries) : Option Entries :=
  match entries.find? key with
  | none => some (entries.append key (.table .headed []))
  | some (.table .implied inner) => some ((entries.remove key).append key (.table .headed inner))
  | some _ => none

/-- Add one more table under a name that is new or has only such tables. -/
def addRow (key : String) (entries : Entries) : Option Entries :=
  match entries.find? key with
  | none => some (entries.append key (.tables [[]]))
  | some (.tables rows) => some (entries.replace key (.tables (rows ++ [[]])))
  | some _ => none

/-- The entries of a table between braces, from its keys and values. -/
def ofPairs : List (List String × String × Value) → Option Entries :=
  fun pairs => pairs.foldlM
    (fun entries (path, key, value) => assign .inlineKey path key value .inline entries) []

end Entries

/-- A document in the making: its entries, and the heading that is in force. -/
structure Draft where
  entries : Entries := []
  heading : List String := []

namespace Draft

/-- Change the table that holds the last part of a name. -/
def editParent (draft : Draft) (name : List String) (edit : String → Entries → Option Entries) :
    Option Draft := do
  let last ← name.getLast?
  let entries ← draft.entries.editAt .heading (fun _ => edit last) name.dropLast .headed
  return ⟨entries, name⟩

/-- The draft with one more statement. -/
def add (draft : Draft) : Statement → Option Draft
  | .heading name => draft.editParent name Entries.head
  | .rowHeading name => draft.editParent name Entries.addRow
  -- A key belongs to the table of the last heading, and may lead further down from there.
  | .assign path key value => do
    let entries ← draft.entries.editAt .heading
      (fun _ entries => entries.assign .dottedKey path key value .headed) draft.heading .headed
    return { draft with entries }

end Draft

/-- The entries of a document, if its statements agree with each other. -/
def Entries.ofStatements? (statements : List Statement) : Option Entries :=
  (statements.foldlM Draft.add {}).map (·.entries)

end FlatWeights.Toml
