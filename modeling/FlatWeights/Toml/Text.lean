import FlatWeights.Text.Parser

/-!
The texts of the configuration language: comments and blanks, the four forms of a string, and keys.
A basic string stands between double quotes and knows escapes, a literal string stands between
single quotes and knows none; each has a form of several lines, between three quotes.
-/

set_option autoImplicit false

namespace FlatWeights.Toml

open Text (Parser)

/-! ## Characters -/

/-- A blank within a line. -/
def isBlank (c : Char) : Bool := c == ' ' || c == '\t'

/-- A character that may stand in a line of text: no control character but the tabulator. -/
def isTextChar (c : Char) : Bool := c == '\t' || (' ' ≤ c && c != '\x7f')

/-- A character of a key that stands without quotes. -/
def isBareKeyChar (c : Char) : Bool :=
  c.isAlphanum || c == '_' || c == '-'

/-! ## What stands between -/

/-- A text without the blanks at its front. -/
def skipBlanks (text : List Char) : List Char := text.dropWhile isBlank

/-- A text without the blanks, line ends and comments at its front. Comments end with their line. -/
def skipGap (inComment : Bool) : List Char → List Char
  | '\n' :: rest => skipGap false rest
  | '\r' :: '\n' :: rest => skipGap false rest
  | c :: rest =>
    if inComment then if isTextChar c then skipGap true rest else c :: rest
    else if isBlank c then skipGap false rest
    else if c = '#' then skipGap true rest
    else c :: rest
  | [] => []

/-- What follows the end of a line. The end of the text ends a line as well. -/
def afterLineEnd? : List Char → Option (List Char)
  | [] => some []
  | '\n' :: rest => some rest
  | '\r' :: '\n' :: rest => some rest
  | _ => none

/-- What follows a line of which blanks and a comment are left. -/
def afterLine? (text : List Char) : Option (List Char) :=
  match skipBlanks text with
  | '#' :: comment => afterLineEnd? (comment.dropWhile isTextChar)
  | rest => afterLineEnd? rest

/-! ## Strings -/

/-- The character that a letter after a backslash stands for. -/
def escaped? : Char → Option Char
  | 'b' => some '\x08'
  | 't' => some '\t'
  | 'n' => some '\n'
  | 'f' => some '\x0c'
  | 'r' => some '\r'
  | '"' => some '"'
  | '\\' => some '\\'
  | _ => none

/-- A character in front of a text that was read. -/
def push (c : Char) : List Char × List Char → List Char × List Char
  | (read, rest) => (c :: read, rest)

/-- A basic string, after its opening quote. -/
def basicString : Parser (List Char)
  | [] => none
  | '"' :: rest => some ([], rest)
  | '\\' :: 'u' :: a :: b :: c :: d :: rest =>
    match Text.hexChar? [a, b, c, d] with
    | some ch => (basicString rest).map (push ch)
    | none => none
  | '\\' :: 'U' :: a :: b :: c :: d :: e :: f :: g :: h :: rest =>
    match Text.hexChar? [a, b, c, d, e, f, g, h] with
    | some ch => (basicString rest).map (push ch)
    | none => none
  | '\\' :: e :: rest =>
    match escaped? e with
    | some ch => (basicString rest).map (push ch)
    | none => none
  | c :: rest => if c ≠ '\\' ∧ isTextChar c then (basicString rest).map (push c) else none

/-- A literal string, after its opening quote. -/
def literalString : Parser (List Char)
  | [] => none
  | '\'' :: rest => some ([], rest)
  | c :: rest => if isTextChar c then (literalString rest).map (push c) else none

/-- What a backslash at the end of a line does to the blanks and line ends that follow it. -/
inductive Fold where
  /-- Nothing is left out. -/
  | open
  /-- Only blanks may stand between the backslash and the end of its line. -/
  | beforeLineEnd
  /-- Blanks and line ends are left out. -/
  | afterLineEnd
deriving DecidableEq, Repr

/-- Three quotes end a string of several lines; up to two more quotes before them belong to it. -/
def closing (quote : Char) (rest : List Char) : List Char × List Char :=
  match rest with
  | a :: b :: rest' =>
    if a = quote then if b = quote then ([quote, quote], rest') else ([quote], b :: rest')
    else ([], rest)
  | [a] => if a = quote then ([quote], []) else ([], rest)
  | [] => ([], [])

/-- A basic string of several lines, after its opening quotes. Every line end is read as a line
feed. -/
def basicLines (fold : Fold) : Parser (List Char)
  | [] => none
  | '\r' :: '\n' :: rest =>
    if fold = .open then (basicLines .open rest).map (push '\n') else basicLines .afterLineEnd rest
  | '\n' :: rest =>
    if fold = .open then (basicLines .open rest).map (push '\n') else basicLines .afterLineEnd rest
  | ' ' :: rest =>
    if fold = .open then (basicLines .open rest).map (push ' ') else basicLines fold rest
  | '\t' :: rest =>
    if fold = .open then (basicLines .open rest).map (push '\t') else basicLines fold rest
  | c :: rest =>
    if fold = .beforeLineEnd then none
    else if c = '"' then
      match rest with
      | '"' :: '"' :: rest => some (closing '"' rest)
      | _ => (basicLines .open rest).map (push '"')
    else if c = '\\' then
      match rest with
      | 'u' :: a :: b :: c :: d :: rest =>
        match Text.hexChar? [a, b, c, d] with
        | some ch => (basicLines .open rest).map (push ch)
        | none => none
      | 'U' :: a :: b :: c :: d :: e :: f :: g :: h :: rest =>
        match Text.hexChar? [a, b, c, d, e, f, g, h] with
        | some ch => (basicLines .open rest).map (push ch)
        | none => none
      | e :: rest =>
        match escaped? e with
        | some ch => (basicLines .open rest).map (push ch)
        | none =>
          if e = '\n' then basicLines .afterLineEnd rest
          else if isBlank e ∨ (e = '\r' ∧ rest.head? = some '\n') then
            basicLines .beforeLineEnd rest
          else none
      | [] => none
    else if isTextChar c then (basicLines .open rest).map (push c)
    else none

/-- A literal string of several lines, after its opening quotes. -/
def literalLines : Parser (List Char)
  | [] => none
  | '\r' :: '\n' :: rest => (literalLines rest).map (push '\n')
  | '\n' :: rest => (literalLines rest).map (push '\n')
  | '\'' :: '\'' :: '\'' :: rest => some (closing '\'' rest)
  | c :: rest => if isTextChar c then (literalLines rest).map (push c) else none

/-- A text without one line end at its front, if it has one there. -/
def skipFirstLineEnd : List Char → List Char
  | '\n' :: rest => rest
  | '\r' :: '\n' :: rest => rest
  | text => text

/-- A string of any form. -/
def stringValue : Parser (List Char)
  | '"' :: '"' :: '"' :: rest => basicLines .open (skipFirstLineEnd rest)
  | '"' :: rest => basicString rest
  | '\'' :: '\'' :: '\'' :: rest => literalLines (skipFirstLineEnd rest)
  | '\'' :: rest => literalString rest
  | _ => none

/-! ## Keys -/

/-- One part of a key: a string of one line, or letters, digits, underscores and dashes. -/
def keyPart : Parser String
  | '"' :: rest => (basicString rest).map fun (cs, rest) => (String.ofList cs, rest)
  | '\'' :: rest => (literalString rest).map fun (cs, rest) => (String.ofList cs, rest)
  | text =>
    match text.span isBareKeyChar with
    | ([], _) => none
    | (cs, rest) => some (String.ofList cs, rest)

/-- A key of at most `bound` parts, divided by points. Blanks around the parts do not count. -/
def keyParts : Nat → Parser (List String)
  | 0, _ => none
  | bound + 1, text =>
    match keyPart (skipBlanks text) with
    | none => none
    | some (part, rest) =>
      match skipBlanks rest with
      | '.' :: rest => (keyParts bound rest).map fun (parts, rest) => (part :: parts, rest)
      | rest => some ([part], rest)

/-- One less than the number of levels to which keys and values must not reach. -/
def deepest : Nat := 79

/-- A key. -/
def key : Parser (List String) := keyParts deepest

end FlatWeights.Toml
