import FlatWeights.Text.CaseIgnorable
import FlatWeights.Text.Cased
import FlatWeights.Text.LowerRuns

/-!
Lower case of a text by the full rules of the character standard: the simple mapping, the one
capital whose small form is two characters, and the capital sigma, which has its own small form at
the end of a word.
-/

set_option autoImplicit false

namespace FlatWeights.Text

/-- The small form of a character, regardless of what stands around it. -/
def lowerChar (c : Char) : List Char :=
  if c = '\u0130' then ['i', '\u0307']
  else match lowerRuns.find? (·.contains c.toNat) with
    | some run => [Char.ofNat (c.toNat + run.shift).toNat]
    | none => [c]

/-- The first character that is not looked through is one that makes a word. -/
def meetsWord (cs : List Char) : Bool :=
  match cs.dropWhile caseIgnorable.contains with
  | [] => false
  | c :: _ => cased.contains c

/-- The small form of a sigma between two texts: the final form stands after a word, with no word
after it. The text before is given from its end. -/
def lowerSigma (before rest : List Char) : Char :=
  if meetsWord before && !meetsWord rest then 'ς' else 'σ'

/-- Lower case of a text that follows another one, which is given from its end. -/
def lowerAfter (before : List Char) : List Char → List Char
  | [] => []
  | c :: rest =>
    (if c = 'Σ' then [lowerSigma before rest] else lowerChar c) ++ lowerAfter (c :: before) rest

/-- Lower case of a whole text. -/
def lowercase (s : String) : String := String.ofList (lowerAfter [] s.toList)

end FlatWeights.Text
