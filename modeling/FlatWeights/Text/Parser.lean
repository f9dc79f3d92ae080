/-!
Readers of text. A reader takes something from the front of a list of characters and gives the
rest, or refuses. Repetition is bounded by the length of the rest, so every reader ends.
-/

set_option autoImplicit false

namespace FlatWeights.Text

/-- A reader: what is read from the front of a text, and the text after it. -/
abbrev Parser (α : Type) := List Char → Option (α × List Char)

namespace Parser

variable {α : Type}

/-- Read something as often as it can be read. An item that takes nothing ends the repetition. -/
def many (item : Parser α) (text : List Char) : List α × List Char :=
  match item text with
  | none => ([], text)
  | some (x, rest) =>
    if rest.length < text.length then
      let (xs, rest) := many item rest
      (x :: xs, rest)
    else ([], text)
termination_by text.length

/-- Read items that a comma divides; there has to be at least one. -/
def commaSeparated (item : Parser α) (text : List Char) : Option (List α × List Char) :=
  match item text with
  | none => none
  | some (x, ',' :: rest) =>
    if rest.length < text.length then
      (commaSeparated item rest).map fun (xs, rest) => (x :: xs, rest)
    else none
  | some (x, rest) => some ([x], rest)
termination_by text.length

/-- Read items of which each may be followed by a comma; only the last one need not be. -/
def commaTerminated (item : Parser α) (text : List Char) : List α × List Char :=
  match item text with
  | none => ([], text)
  | some (x, ',' :: rest) =>
    if rest.length < text.length then
      let (xs, rest) := commaTerminated item rest
      (x :: xs, rest)
    else ([], text)
  | some (x, rest) => ([x], rest)
termination_by text.length

end Parser

/-! ## Digits -/

/-- The value of a hexadecimal digit. -/
def hexDigit? (c : Char) : Option Nat :=
  if c.isDigit then some (c.toNat - '0'.toNat)
  else if 'a' ≤ c ∧ c ≤ 'f' then some (c.toNat - 'a'.toNat + 10)
  else if 'A' ≤ c ∧ c ≤ 'F' then some (c.toNat - 'A'.toNat + 10)
  else none

/-- The number that digits denote in a base, each digit being below the base. -/
def number? (base : Nat) (digits : List Char) : Option Nat :=
  digits.foldlM
    (fun n c => (hexDigit? c).bind fun d => if d < base then some (n * base + d) else none) 0

/-- The character with a given code point, if there is one. -/
def charOf? (n : Nat) : Option Char := if n.isValidChar then some (Char.ofNat n) else none

/-- The character whose code point is given in hexadecimal digits. -/
def hexChar? (digits : List Char) : Option Char := (number? 16 digits).bind charOf?

end FlatWeights.Text
