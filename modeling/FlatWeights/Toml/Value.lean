/-!
Values of the configuration language. Tables remember how they came about, since that decides
whether a later part of the document may add to them.
-/

set_option autoImplicit false

namespace FlatWeights.Toml

/-- How a table came about. -/
inductive TableKind where
  /-- By a heading of its own; the document as a whole counts among these. -/
  | headed
  /-- As a table on the way to the heading of another one. -/
  | implied
  /-- By a key of several parts. -/
  | dotted
  /-- As a value between braces. -/
  | inline
  /-- By a key of several parts between braces. -/
  | inlineDotted
deriving DecidableEq, Repr

/-- A value. Dates and times are kept as they are written in full. -/
inductive Value where
  | string (text : String)
  | integer (n : Int)
  | float
  | boolean (b : Bool)
  | datetime (text : String)
  | array (items : List Value)
  | table (kind : TableKind) (entries : List (String × Value))
  /-- Tables that each have a heading of their own under one name. -/
  | tables (rows : List (List (String × Value)))
deriving Repr

/-- The entries of a table, in the order of the document. -/
abbrev Entries := List (String × Value)

/-- One statement of a document. -/
inductive Statement where
  /-- A heading: what follows belongs to the table of that name. -/
  | heading (path : List String)
  /-- A heading of one more table among those of that name. -/
  | rowHeading (path : List String)
  /-- A key and its value; `path` holds the parts of the key before the last. -/
  | assign (path : List String) (key : String) (value : Value)
deriving Repr

namespace Entries

/-- The value of a key. -/
def find? (entries : Entries) (key : String) : Option Value := entries.lookup key

/-- The entries with the value of a key replaced in its place. -/
def replace (entries : Entries) (key : String) (value : Value) : Entries :=
  entries.map fun e => if e.1 = key then (key, value) else e

/-- The entries without a key. -/
def remove (entries : Entries) (key : String) : Entries := entries.filter (·.1 ≠ key)

/-- The entries with a new one at the end. -/
def append (entries : Entries) (key : String) (value : Value) : Entries := entries ++ [(key, value)]

end Entries

end FlatWeights.Toml
