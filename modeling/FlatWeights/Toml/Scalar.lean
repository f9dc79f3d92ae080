import FlatWeights.Text.Decimal
import FlatWeights.Toml.Text
import FlatWeights.Toml.Value

/-!
Values that stand without quotes and brackets: numbers, truth values, dates and times. Such a value
is the longest run of the characters that may occur in one, and each kind says which runs are its
values. A date may be joined with a time by a blank.
-/

set_option autoImplicit false

namespace FlatWeights.Toml

open Text (Parser signed cutAt exceedsDouble)

/-- A character that may occur in a value without quotes and brackets. -/
def isScalarChar (c : Char) : Bool :=
  c.isAlphanum || c == '_' || c == '+' || c == '-' || c == '.' || c == ':'

/-! ## Numbers -/

/-- The digits of a run in which single underscores may stand between digits. -/
def ungrouped? (isDigit : Char → Bool) : List Char → Option (List Char)
  | [] => none
  | [d] => if isDigit d then some [d] else none
  | d :: '_' :: rest =>
    if isDigit d then (ungrouped? isDigit rest).map (d :: ·) else none
  | d :: rest => if isDigit d then (ungrouped? isDigit rest).map (d :: ·) else none

/-- The digits of a decimal number without a sign. Only zero begins with the digit 0. -/
def decimalDigits? (run : List Char) : Option (List Char) :=
  match ungrouped? Char.isDigit run with
  | some ['0'] => some ['0']
  | some ('0' :: _) => none
  | digits? => digits?

/-- The integers that fit in eight bytes with a sign. -/
def isInteger (n : Int) : Bool := Int64.minValue.toInt ≤ n && n ≤ Int64.maxValue.toInt

/-- The number of a run of digits in a base. -/
def based? (base : Nat) (run : List Char) : Option Int := do
  let digits ← ungrouped? (fun c => (Text.hexDigit? c).any (· < base)) run
  let n ← Text.number? base digits
  if isInteger n then some n else none

/-- An integer: decimal with or without a sign, or hexadecimal, octal or binary. -/
def integer? : List Char → Option Int
  | '0' :: 'x' :: run => based? 16 run
  | '0' :: 'o' :: run => based? 8 run
  | '0' :: 'b' :: run => based? 2 run
  | run => do
    let (negative, run) := signed run
    let n : Nat := Nat.ofDigitChars 10 (← decimalDigits? run) 0
    let value : Int := if negative then -n else n
    if isInteger value then some value else none

/-- A run of digits that may begin with zeros, with single underscores between them. -/
def paddedDigits? (run : List Char) : Option (List Char) := ungrouped? Char.isDigit run

/-- The exponent that follows the letter `e`. -/
def exponent? (run : List Char) : Option Int := do
  let (negative, run) := signed run
  let n : Nat := Nat.ofDigitChars 10 (← paddedDigits? run) 0
  return if negative then -n else n

/-- The run is a number with a fraction or an exponent, and not too large for double precision. -/
def isDecimalFraction (run : List Char) : Bool :=
  let (negative, run) := signed run
  let (mantissa, exponentPart) := cutAt (fun c => c == 'e' || c == 'E') run
  let (whole, fractionPart) := cutAt (· == '.') mantissa
  let checked : Option Bool := do
    let whole ← decimalDigits? whole
    let fraction ← match fractionPart with
      | none => some []
      | some part => paddedDigits? part
    let exponent ← match exponentPart with
      | none => some 0
      | some part => exponent? part
    if fractionPart.isNone && exponentPart.isNone then none
    else return negative || !exceedsDouble (whole ++ fraction) (exponent - fraction.length)
  checked.getD false

/-- The run is a number of double precision, one of the words `inf` and `nan` included. -/
def isFloat (run : List Char) : Bool :=
  let (_, word) := signed run
  word = "inf".toList || word = "nan".toList || isDecimalFraction run

/-! ## Dates and times -/

/-- A number of exactly `width` digits. -/
def fixedNumber : Nat → Parser Nat := go 0
where
  go (n : Nat) : Nat → Parser Nat
    | 0, text => some (n, text)
    | _ + 1, [] => none
    | width + 1, c :: text =>
      if c.isDigit then go (n * 10 + (c.toNat - '0'.toNat)) width text else none

/-- A number of two digits in decimal notation. -/
def twoDigits (n : Nat) : List Char := [Nat.digitChar (n / 10), Nat.digitChar (n % 10)]

/-- The year has a 29th of February. -/
def isLeapYear (year : Nat) : Bool := year % 4 == 0 && (year % 100 != 0 || year % 400 == 0)

/-- The number of days of a month. -/
def daysOfMonth (year month : Nat) : Nat :=
  if month = 2 then if isLeapYear year then 29 else 28
  else if month ∈ [4, 6, 9, 11] then 30
  else 31

/-- What follows a character. -/
def afterChar? (c : Char) : List Char → Option (List Char)
  | d :: rest => if d = c then some rest else none
  | [] => none

/-- A date; it is read as it is written. -/
def date (text : List Char) : Option (List Char × List Char) := do
  let (year, rest) ← fixedNumber 4 text
  let rest ← afterChar? '-' rest
  let (month, rest) ← fixedNumber 2 rest
  let rest ← afterChar? '-' rest
  let (day, rest) ← fixedNumber 2 rest
  if 1 ≤ month ∧ month ≤ 12 ∧ 1 ≤ day ∧ day ≤ daysOfMonth year month then
    some (text.take 10, rest)
  else none

/-- The fraction of a second, which is read to nine digits, without the zeros at its end. -/
def secondFraction : List Char → Option (List Char × List Char)
  | '.' :: rest =>
    match rest.span Char.isDigit with
    | ([], _) => none
    | (digits, rest) =>
      let kept := ((digits.take 9).reverse.dropWhile (· == '0')).reverse
      some (if kept = [] then [] else '.' :: kept, rest)
  | text => some ([], text)

/-- A time of day. -/
def time (text : List Char) : Option (List Char × List Char) := do
  let (hour, rest) ← fixedNumber 2 text
  let rest ← afterChar? ':' rest
  let (minute, rest) ← fixedNumber 2 rest
  let rest ← afterChar? ':' rest
  let (second, rest) ← fixedNumber 2 rest
  if hour ≤ 23 ∧ minute ≤ 59 ∧ second ≤ 60 then
    let (fraction, rest) ← secondFraction rest
    some (text.take 8 ++ fraction, rest)
  else none

/-- The distance of a time from universal time, if the text gives one. -/
def offset : List Char → Option (List Char)
  | [] => some []
  | ['Z'] | ['z'] => some ['Z']
  | sign :: rest => do
    if sign = '+' ∨ sign = '-' then
      let (hours, rest) ← fixedNumber 2 rest
      let rest ← afterChar? ':' rest
      let (minutes, rest) ← fixedNumber 2 rest
      let shown := if hours = 0 ∧ minutes = 0 then '+' else sign
      if hours ≤ 23 ∧ minutes ≤ 59 ∧ rest = [] then
        some (shown :: twoDigits hours ++ ':' :: twoDigits minutes)
      else none
    else none

/-- A date, a time, or both, in full form. -/
def datetime? (run : List Char) : Option (List Char) :=
  match date run with
  | some (day, []) => some day
  | some (day, delimiter :: rest) => do
    if delimiter = 'T' ∨ delimiter = 't' ∨ delimiter = ' ' then
      let (clock, rest) ← time rest
      return day ++ 'T' :: clock ++ (← offset rest)
    else none
  | none => do
    let (clock, rest) ← time run
    if rest = [] then some clock else none

/-! ## Values -/

/-- The value that a run of characters is, if it is one. -/
def scalarOf? (run : List Char) : Option Value :=
  if run = "true".toList then some (.boolean true)
  else if run = "false".toList then some (.boolean false)
  else match datetime? run with
    | some text => some (.datetime (String.ofList text))
    | none =>
      if isFloat run then some .float else (integer? run).map .integer

/-- The run of a value at the front of a text. A date goes on after a blank if a digit follows. -/
def scalarRun (text : List Char) : List Char × List Char :=
  match text.span isScalarChar with
  | (run, ' ' :: rest) =>
    if (date run).map (·.2) = some [] ∧ rest.head?.any Char.isDigit then
      let (clock, rest) := rest.span isScalarChar
      (run ++ ' ' :: clock, rest)
    else (run, ' ' :: rest)
  | split => split

/-- A value without quotes and brackets. -/
def scalar (text : List Char) : Option (Value × List Char) :=
  let (run, rest) := scalarRun text
  (scalarOf? run).map fun value => (value, rest)

end FlatWeights.Toml
