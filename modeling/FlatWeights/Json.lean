import FlatWeights.Text.Decimal
import FlatWeights.Text.Parser

/-!
Values of the notation in which a checkpoint describes its tensors, and a reader for them. Objects
keep their members in the order of the text, repeated names included. Of numbers only the sizes are
told apart: whole numbers that are written with digits alone.
-/

set_option autoImplicit false

namespace FlatWeights

/-- A described value. -/
inductive Json where
  | null
  | boolean (b : Bool)
  | size (n : Nat)
  /-- Any other number. -/
  | number
  | string (s : String)
  | array (items : List Json)
  | object (members : List (String × Json))
deriving Repr

namespace Json

open Text (Parser)

/-- A blank between the parts of a value. -/
def isBlank (c : Char) : Bool := c == ' ' || c == '\t' || c == '\n' || c == '\r'

/-- A text without the blanks at its front. -/
def skipBlanks (text : List Char) : List Char := text.dropWhile isBlank

/-! ## Numbers -/

/-- A character that may occur in a number. -/
def isNumberChar (c : Char) : Bool :=
  c.isDigit || c == '+' || c == '-' || c == '.' || c == 'e' || c == 'E'

/-- Digits, at least one. -/
def digits? (text : List Char) : Option (List Char) :=
  if text ≠ [] ∧ text.all Char.isDigit then some text else none

/-- The digits of a whole number; only zero begins with the digit 0. -/
def wholeDigits? (text : List Char) : Option (List Char) := do
  match ← digits? text with
  | '0' :: _ :: _ => none
  | digits => return digits

/-- The exponent that follows the letter `e`. -/
def exponent? (text : List Char) : Option Int := do
  let (negative, text) := Text.signed text
  let n : Nat := Nat.ofDigitChars 10 (← digits? text) 0
  return if negative then -n else n

/-- The number that a run of characters is, if it is one of double precision. A size is known by
its digits alone; any other number is formed from a significand and a power of ten. -/
def numberOf? (run : List Char) : Option Json := do
  let (negative, unsigned) := match run with
    | '-' :: rest => (true, rest)
    | rest => (false, rest)
  let (mantissa, exponentPart) := Text.cutAt (fun c => c == 'e' || c == 'E') unsigned
  let (whole, fractionPart) := Text.cutAt (· == '.') mantissa
  let whole ← wholeDigits? whole
  let fraction ← match fractionPart with
    | none => some []
    | some part => digits? part
  let exponent ← match exponentPart with
    | none => some 0
    | some part => exponent? part
  let (significand, shift) := Text.significandOf whole fraction
  if !negative && fractionPart.isNone && exponentPart.isNone && shift = 0 then
    return .size significand
  else if Text.productExceedsDouble significand (shift + exponent) then none
  else return .number

/-! ## Texts -/

/-- The character that a letter after a backslash stands for. -/
def escaped? : Char → Option Char
  | '"' => some '"'
  | '\\' => some '\\'
  | '/' => some '/'
  | 'b' => some '\x08'
  | 'f' => some '\x0c'
  | 'n' => some '\n'
  | 'r' => some '\r'
  | 't' => some '\t'
  | _ => none

/-- The character that two halves of an escape above the basic plane make up. -/
def surrogatePair? (high low : Nat) : Option Char :=
  if 0xD800 ≤ high ∧ high < 0xDC00 ∧ 0xDC00 ≤ low ∧ low < 0xE000 then
    Text.charOf? (0x10000 + (high - 0xD800) * 0x400 + (low - 0xDC00))
  else none

/-- A text, after its opening quote. -/
def stringBody : Parser (List Char)
  | [] => none
  | '"' :: rest => some ([], rest)
  | '\\' :: 'u' :: a :: b :: c :: d :: rest =>
    match Text.number? 16 [a, b, c, d] with
    | none => none
    | some n =>
      match Text.charOf? n with
      | some ch => (stringBody rest).map fun (cs, rest) => (ch :: cs, rest)
      | none =>
        -- no character by itself, so it has to be the first half of one
        match rest with
        | '\\' :: 'u' :: e :: f :: g :: h :: rest =>
          match (Text.number? 16 [e, f, g, h]).bind (surrogatePair? n) with
          | some ch => (stringBody rest).map fun (cs, rest) => (ch :: cs, rest)
          | none => none
        | _ => none
  | '\\' :: e :: rest =>
    match escaped? e with
    | some ch => (stringBody rest).map fun (cs, rest) => (ch :: cs, rest)
    | none => none
  | c :: rest =>
    if c ≠ '\\' ∧ ' ' ≤ c then (stringBody rest).map fun (cs, rest) => (c :: cs, rest) else none

/-! ## Values -/

/-- Something with blanks around it. -/
def spaced {α : Type} (item : Parser α) : Parser α := fun text =>
  (item (skipBlanks text)).map fun (x, rest) => (x, skipBlanks rest)

/-- Items between an opening and a closing bracket, divided by commas; the opening one was read. -/
def bracketed {α : Type} (item : Parser α) (closing : Char) : Parser (List α) := fun text =>
  match skipBlanks text with
  | [] => none
  | c :: rest =>
    if c = closing then some ([], rest)
    else match Parser.commaSeparated (spaced item) (c :: rest) with
      | some (items, d :: rest) => if d = closing then some (items, rest) else none
      | _ => none

/-- A member of an object: a name, a colon and a value. -/
def member (value : Parser Json) : Parser (String × Json) := fun text =>
  match text with
  | '"' :: rest => do
    let (name, rest) ← stringBody rest
    match skipBlanks rest with
    | ':' :: rest =>
      let (value, rest) ← spaced value rest
      return ((String.ofList name, value), rest)
    | _ => none
  | _ => none

/-- A word or a number, that is, a value of one piece without quotes. -/
def scalar (text : List Char) : Option (Json × List Char) :=
  match text with
  | 'n' :: 'u' :: 'l' :: 'l' :: rest => some (.null, rest)
  | 't' :: 'r' :: 'u' :: 'e' :: rest => some (.boolean true, rest)
  | 'f' :: 'a' :: 'l' :: 's' :: 'e' :: rest => some (.boolean false, rest)
  | text =>
    let (run, rest) := text.span isNumberChar
    (numberOf? run).map fun value => (value, rest)

/-- A value in which brackets and braces are nested at most `bound` levels deep. -/
def valueWithin : Nat → Parser Json
  | _, [] => none
  | bound, c :: rest =>
    if c = '"' then
      (stringBody rest).map fun (cs, rest) => (.string (String.ofList cs), rest)
    else if c = '[' then
      match bound with
      | 0 => none
      | bound + 1 =>
        (bracketed (valueWithin bound) ']' rest).map fun (items, rest) => (.array items, rest)
    else if c = '\x7b' then
      match bound with
      | 0 => none
      | bound + 1 =>
        (bracketed (member (valueWithin bound)) '\x7d' rest).map fun (members, rest) =>
          (.object members, rest)
    else scalar (c :: rest)

/-- The most levels of brackets and braces. -/
def deepest : Nat := 127

/-- The value that a text is, apart from blanks around it. -/
def read? (text : List Char) : Option Json :=
  match spaced (valueWithin deepest) text with
  | some (value, []) => some value
  | _ => none

end Json

end FlatWeights
