/-!
Shapes of tensors. A checkpoint declares a shape of any rank; weight files know three axes only.
`Shape.canonical` passes from the first to the second without touching the order of the elements:
axes of length 1 in front may be taken away or added, and nothing else.
-/

set_option autoImplicit false

namespace FlatWeights

/-- The lengths of the axes of a tensor, outermost first. -/
abbrev Shape := List Nat

/-- The lengths of exactly three axes. -/
structure Dims (α : Type) where
  outer : α
  middle : α
  inner : α
deriving DecidableEq, Repr

namespace Dims

/-- The three lengths, outermost first. -/
def toList {α : Type} (d : Dims α) : List α := [d.outer, d.middle, d.inner]

/-- The same function applied to the three lengths. -/
def map {α β : Type} (f : α → β) (d : Dims α) : Dims β := ⟨f d.outer, f d.middle, f d.inner⟩

end Dims

namespace Shape

/-- A shape as it is shown in messages, such as `[2, 3]`. -/
def render (s : Shape) : String :=
  "[" ++ String.intercalate ", " (s.map Nat.repr) ++ "]"

/-- The three-axis form of a shape: its last three lengths, with lengths 1 in front where there
are fewer. Each length further in front must be 1; the first that is not is the error. -/
def canonical : Shape → Except Nat (Dims Nat)
  | [] => .ok ⟨1, 1, 1⟩
  | [inner] => .ok ⟨1, 1, inner⟩
  | [middle, inner] => .ok ⟨1, middle, inner⟩
  | [outer, middle, inner] => .ok ⟨outer, middle, inner⟩
  | first :: rest => if first = 1 then canonical rest else .error first

end Shape

/-- Three lengths as they are shown in messages. -/
def Dims.render (d : Dims Nat) : String := Shape.render d.toList

end FlatWeights
