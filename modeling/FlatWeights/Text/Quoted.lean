import FlatWeights.Text.GraphemeExtend
import FlatWeights.Text.Unprintable

/-!
Names as they are shown in diagnostics: between double quotes, with every character that could not
be seen or would end the quotation written as an escape.
-/

set_option autoImplicit false

namespace FlatWeights.Text

/-- An escape that gives the code point in lower-case hexadecimal digits. -/
def codePointEscape (c : Char) : List Char :=
  "\\u\x7b".toList ++ Nat.toDigits 16 c.toNat ++ ['\x7d']

/-- A character as it stands in a quotation. Combining marks are escaped too, since they would
attach to the character before them. -/
def quotedChar (c : Char) : List Char :=
  match c with
  | '\x00' => ['\\', '0']
  | '\t' => ['\\', 't']
  | '\r' => ['\\', 'r']
  | '\n' => ['\\', 'n']
  | '"' => ['\\', '"']
  | '\\' => ['\\', '\\']
  | _ =>
    if graphemeExtend.contains c || unprintable.contains c then codePointEscape c else [c]

/-- A text between double quotes. -/
def quoted (s : String) : String :=
  String.ofList ('"' :: s.toList.flatMap quotedChar ++ ['"'])

end FlatWeights.Text
