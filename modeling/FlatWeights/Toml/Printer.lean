import FlatWeights.Toml.Text

/-!
Writing keys and strings. A string has up to five written forms; the first that fits is used:
between double quotes, between single quotes, the two forms of several lines, and last a form with
escapes, which fits every string.
-/

set_option autoImplicit false

namespace FlatWeights.Toml

/-! ## What a text asks of its written form -/

/-- A control character other than the tabulator and the line feed. -/
def isHardControl (c : Char) : Bool :=
  (c < ' ' || c == '\x7f') && c != '\t' && c != '\n'

/-- The longest run of a character in a text. -/
def longestRun (c : Char) (text : List Char) : Nat :=
  let rec go (current : Nat) : List Char → Nat
    | [] => current
    | d :: rest => if d = c then go (current + 1) rest else max current (go 0 rest)
  go 0 text

/-- The forms in which a text may be written. -/
inductive TextForm where
  | basic
  | literal
  | basicLines
  | literalLines
deriving DecidableEq, Repr

/-- The forms of one line, in the order in which they are tried. -/
def TextForm.oneLine : List TextForm := [.basic, .literal]

/-- All forms, in the order in which they are tried. -/
def TextForm.all : List TextForm := oneLine ++ [.basicLines, .literalLines]

/-- A text can stand in a form as it is, without an escape. -/
def TextForm.fits (text : List Char) : TextForm → Bool
  | basic => !text.any fun c => isHardControl c || c == '\\' || c == '"' || c == '\n'
  | literal => !text.any fun c => isHardControl c || c == '\'' || c == '\n'
  | basicLines => !text.any (fun c => isHardControl c || c == '\\') && longestRun '"' text ≤ 2
  | literalLines => !text.any isHardControl && longestRun '\'' text ≤ 2

/-! ## Escapes -/

/-- A character as it stands in a form that knows escapes. -/
def escape (c : Char) : List Char :=
  match c with
  | '\x08' => ['\\', 'b']
  | '\t' => ['\\', 't']
  | '\n' => ['\\', 'n']
  | '\x0c' => ['\\', 'f']
  | '\r' => ['\\', 'r']
  | '"' => ['\\', '"']
  | '\\' => ['\\', '\\']
  | c =>
    if isHardControl c then
      ['\\', 'u', '0', '0', upperHexDigit (c.toNat / 16), upperHexDigit (c.toNat % 16)]
    else [c]
where
  /-- The digit of a number below 16, a capital where it is a letter. -/
  upperHexDigit (n : Nat) : Char := (Nat.digitChar n).toUpper

/-- The body of a string of several lines. A line feed stands as it is, and so does a double quote
unless it is the third of a run; `run` is the number of quotes directly before the text. -/
def escapeLines (run : Nat) : List Char → List Char
  | [] => []
  | '\n' :: rest => '\n' :: escapeLines 0 rest
  | '"' :: rest =>
    if run = 2 then '\\' :: '"' :: escapeLines 0 rest else '"' :: escapeLines (run + 1) rest
  | c :: rest => escape c ++ escapeLines 0 rest

/-! ## Forms -/

/-- The line end after the opening quotes of several lines, which is not part of the text. It is
written where the text has line ends of its own. -/
def leadingLineEnd (text : List Char) : List Char := if text.contains '\n' then ['\n'] else []

/-- A text in a form. -/
def TextForm.write (text : List Char) : TextForm → List Char
  | basic => '"' :: text.flatMap escape ++ ['"']
  | literal => '\'' :: text ++ ['\'']
  | basicLines => ['"', '"', '"'] ++ leadingLineEnd text ++ escapeLines 0 text ++ ['"', '"', '"']
  | literalLines => ['\'', '\'', '\''] ++ leadingLineEnd text ++ text ++ ['\'', '\'', '\'']

/-- The form of a string value. -/
def formOf (text : List Char) : TextForm :=
  (TextForm.all.find? (·.fits text)).getD
    (if text.contains '\n' then .basicLines else .basic)

/-- A string value as it is written. -/
def writeString (text : List Char) : List Char := (formOf text).write text

/-- A key of one part as it is written: without quotes if it can be, and on one line. -/
def writeKey (key : List Char) : List Char :=
  if key ≠ [] ∧ key.all isBareKeyChar then key
  else ((TextForm.oneLine.find? (·.fits key)).getD .basic).write key

end FlatWeights.Toml
