/-!
Sets of characters given by the code points at which membership changes. The list is increasing;
characters below its first entry are outside, from there up to the second entry they are inside,
and so on. A property of the character standard is one such list.
-/

set_option autoImplicit false

namespace FlatWeights.Text

/-- A set of code points: the increasing list of the points where membership changes. -/
structure CodeSet where
  changes : List Nat

/-- A character belongs to the set when an odd number of changes lie at or below it. -/
def CodeSet.contains (s : CodeSet) (c : Char) : Bool :=
  (s.changes.takeWhile (· ≤ c.toNat)).length % 2 == 1

end FlatWeights.Text
