/-!
Rounding to a binary grid. A number goes to the nearest point of the grid, and one that lies halfway
between two points goes to the even one.
-/

set_option autoImplicit false

namespace FlatWeights

/-- The quotient of a number by `2 ^ shift`, rounded to the nearest whole number, and to the even
one of two that are equally near. -/
def shiftRounded (n shift : Nat) : Nat :=
  let unit := 1 <<< shift
  let quotient := n / unit
  let remainder := n % unit
  if unit < 2 * remainder then quotient + 1
  else if unit = 2 * remainder then quotient + quotient % 2
  else quotient

/-- The number of bits of the significand of a number of double precision. -/
def doubleWidth : Nat := 53

/-- The number of double precision that is nearest to a whole number, as long as it is finite. -/
def nearestDouble (n : Nat) : Nat :=
  let shift := n.log2 + 1 - doubleWidth
  shiftRounded n shift <<< shift

/-- The least number whose nearest number of double precision is infinity: it lies halfway from the
largest finite one to `2 ^ 1024`. -/
def doubleLimit : Nat := 1 <<< 1024 - 1 <<< 970

end FlatWeights
