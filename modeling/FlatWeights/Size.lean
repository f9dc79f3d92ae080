/-!
Sizes: counts of elements and of bytes. A size is a natural number below `2 ^ 64`. Sums and
products are formed only while they stay below that limit; one that would pass it is refused
instead of being reduced, so that a count which is returned is always the exact count.
-/

set_option autoImplicit false

namespace FlatWeights.Size

/-- The first number that is no size. -/
def limit : Nat := UInt64.size

/-- The first number of bytes for which no buffer can be made. Half of the sizes are too large. -/
def bufferLimit : Nat := limit / 2

/-- The bytes of the buffer of a reader or a writer where nothing else is asked for. -/
def defaultBuffer : Nat := 1048576

/-- A number as a size, if it is one. -/
def check? (n : Nat) : Option Nat := if n < limit then some n else none

/-- The sum of two sizes, if it is a size. -/
def add? (a b : Nat) : Option Nat := check? (a + b)

/-- The product of two sizes, if it is a size. -/
def mul? (a b : Nat) : Option Nat := check? (a * b)

/-- The product of a list of sizes, formed from left to right starting at 1. Every partial
product has to be a size: `[0, 2 ^ 63, 4]` has the product 0, and `[2 ^ 63, 4, 0]` has none. -/
def product? (sizes : List Nat) : Option Nat := sizes.foldlM mul? 1

/-- The bytes of a buffer for items of one width, if such a buffer can be made. -/
def buffer? (count width : Nat) : Option Nat :=
  if count * width < bufferLimit then some (count * width) else none

/-! ## Exactness -/

/-- A number passes if it is below the limit. -/
theorem check?_eq_some_iff {n k : Nat} : check? n = some k ↔ n = k ∧ n < limit := by
  unfold check?
  split
  next h => simp [h]
  next h => simp only [reduceCtorEq, false_iff]; exact fun hk => h hk.2

/-- Sums are taken below the limit. -/
theorem add?_eq_some_iff {a b k : Nat} : add? a b = some k ↔ a + b = k ∧ a + b < limit :=
  check?_eq_some_iff

/-- Products are taken below the limit. -/
theorem mul?_eq_some_iff {a b k : Nat} : mul? a b = some k ↔ a * b = k ∧ a * b < limit :=
  check?_eq_some_iff

/-- No buffer has more bytes than an allocation can. -/
theorem buffer?_eq_none_iff {count width : Nat} :
    buffer? count width = none ↔ bufferLimit ≤ count * width := by
  rw [buffer?, ite_eq_right_iff, ← Nat.not_lt]
  simp

end FlatWeights.Size
