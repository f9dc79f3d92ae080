import FlatWeights.Toml.Scalar
import FlatWeights.Toml.Table

/-!
Reading a document: its statements, one after the other, and from them its tables.
-/

set_option autoImplicit false

namespace FlatWeights.Toml

open Text (Parser)

/-- The part of a key before its last part, and the last part. -/
def splitKey? (parts : List String) : Option (List String × String) :=
  parts.getLast?.map fun last => (parts.dropLast, last)

/-- A key, the equals sign, and a value that `value` reads. -/
def assignment (value : Parser Value) : Parser (List String × String × Value) := fun text =>
  match key text with
  | some (parts, '=' :: rest) => do
    let (path, last) ← splitKey? parts
    let (value, rest) ← value (skipBlanks rest)
    return ((path, last, value), rest)
  | _ => none

/-- The items of an array, after the opening bracket. -/
def arrayItems (item : Parser Value) : Parser Value := fun text =>
  let element : Parser Value := fun text =>
    (item (skipGap false text)).map fun (value, rest) => (value, skipGap false rest)
  let (items, rest) := Parser.commaTerminated element text
  match skipGap false rest with
  | ']' :: rest => some (.array items, rest)
  | _ => none

/-- The entries of a table between braces, after the opening one. -/
def inlineEntries (item : Parser Value) : Parser Value := fun text =>
  match skipBlanks text with
  | '\x7d' :: rest => some (.table .inline [], rest)
  | text => do
    let pair : Parser (List String × String × Value) := fun text =>
      (assignment item text).map fun (pair, rest) => (pair, skipBlanks rest)
    match Parser.commaSeparated pair text with
    | some (pairs, '\x7d' :: rest) => do
      let entries ← Entries.ofPairs pairs
      return (.table .inline entries, rest)
    | _ => none

/-- A value in which brackets and braces are nested at most `bound` levels deep. -/
def valueWithin : Nat → Parser Value
  | _, [] => none
  | bound, text@(c :: rest) =>
    if c = '"' ∨ c = '\'' then
      (stringValue text).map fun (cs, rest) => (.string (String.ofList cs), rest)
    else if c = '[' then
      match bound with
      | 0 => none
      | bound + 1 => arrayItems (valueWithin bound) rest
    else if c = '\x7b' then
      match bound with
      | 0 => none
      | bound + 1 => inlineEntries (valueWithin bound) rest
    else scalar text

/-- A value. -/
def value : Parser Value := valueWithin deepest

/-- What a heading names, between its brackets. -/
def headingName (closing : List Char) (text : List Char) : Option (List String × List Char) := do
  let (name, rest) ← key text
  if closing.isPrefixOf rest then
    return (name, ← afterLine? (rest.drop closing.length))
  else none

/-- One line of a document that is not continued, with the statement that it makes, if any. -/
def line : Parser (Option Statement) := fun text =>
  match skipBlanks text with
  | [] => none
  | '[' :: '[' :: rest =>
    (headingName [']', ']'] rest).map fun (name, rest) => (some (.rowHeading name), rest)
  | '[' :: rest =>
    (headingName [']'] rest).map fun (name, rest) => (some (.heading name), rest)
  | c :: rest =>
    if c = '#' ∨ c = '\n' ∨ c = '\r' then
      (afterLine? (c :: rest)).map fun rest => (none, rest)
    else do
      let ((path, key, value), rest) ← assignment value (c :: rest)
      return (some (.assign path key value), ← afterLine? rest)

/-- The statements of a document. A byte order mark in front of it does not count. -/
def statements? (text : List Char) : Option (List Statement) :=
  let body := match text with
    | '\ufeff' :: rest => rest
    | text => text
  let (lines, rest) := Parser.many line body
  if skipBlanks rest = [] then some (lines.filterMap id) else none

/-- The entries of a document. -/
def read? (text : String) : Option Entries :=
  (statements? text.toList).bind Entries.ofStatements?

end FlatWeights.Toml
