/-!
Progress through a source of items. A source hands out items one at a time and can say how many it
expects to have left, as a lower and perhaps an upper bound. `Progress` counts the items it has
passed on and keeps an expected total, which starts at the bound of the source and is raised as
soon as the count passes it.
-/

set_option autoImplicit false

namespace FlatWeights

/-- A source of items: how it hands out the next one, and what it says about those that are left. -/
structure Source (σ α : Type) where
  next : σ → Option α × σ
  hint : σ → Nat × Option Nat

/-- A source with a count of its items and an expected total. -/
structure Progress (σ : Type) where
  inner : σ
  position : Nat
  total : Nat
deriving DecidableEq, Repr

namespace Progress

variable {σ α : Type}

/-- The start of the way through a source. The total is the upper bound of what is left where
there is one, and else the lower bound. -/
def start (source : Source σ α) (inner : σ) : Progress σ :=
  let (lower, upper) := source.hint inner
  ⟨inner, 0, upper.getD lower⟩

/-- The next item, and the progress made with it. At the end nothing is counted. -/
def next (source : Source σ α) (p : Progress σ) : Option α × Progress σ :=
  match source.next p.inner with
  | (none, inner) => (none, { p with inner })
  | (some item, inner) =>
    let position := p.position + 1
    (some item, ⟨inner, position, max p.total position⟩)

/-- What the source says about the items that are left. -/
def hint (source : Source σ α) (p : Progress σ) : Nat × Option Nat := source.hint p.inner

end Progress

/-- The numbers from `next` up to `stop`, which is not one of them. -/
structure Span where
  next : Nat
  stop : Nat
deriving DecidableEq, Repr

namespace Span

/-- How many numbers a span has. -/
def size (s : Span) : Nat := s.stop - s.next

/-- The first number of a span that passes a test, and what comes after it. -/
def nextKept (keep : Nat → Bool) (s : Span) : Option Nat × Span :=
  if s.next < s.stop then
    let rest : Span := ⟨s.next + 1, s.stop⟩
    if keep s.next then (some s.next, rest) else nextKept keep rest
  else (none, s)
termination_by s.stop - s.next

end Span

namespace Source

variable {σ τ α β : Type}

/-! ## What sources are made from -/

/-- The items of a list in order, with an exact bound. -/
def exact : Source (List α) α where
  next
    | [] => (none, [])
    | item :: rest => (some item, rest)
  hint left := (left.length, some left.length)

/-- The numbers of a span that pass a test, with the size of the span as the upper bound. -/
def kept (keep : Nat → Bool) : Source Span Nat where
  next := Span.nextKept keep
  hint left := (0, some left.size)

/-- The numbers of a span in order, with an exact bound. -/
def span : Source Span Nat where
  next := Span.nextKept fun _ => true
  hint left := (left.size, some left.size)

/-! ## Sources from sources -/

/-- A source that says nothing about the items it has left. -/
def unbounded (source : Source σ α) : Source σ α where
  next := source.next
  hint _ := (0, none)

/-- A source with a function applied to its items. -/
def map (f : α → β) (source : Source σ α) : Source σ β where
  next left :=
    let (item, left) := source.next left
    (item.map f, left)
  hint := source.hint

/-- The items of a source and then those of another one. There is an upper bound where both have
one. -/
def chain (first : Source σ α) (second : Source τ α) : Source (σ × τ) α where
  next left :=
    match first.next left.1 with
    | (some item, rest) => (some item, (rest, left.2))
    | (none, rest) =>
      let (item, rest') := second.next left.2
      (item, (rest, rest'))
  hint left :=
    let (lower, upper) := first.hint left.1
    let (lower', upper') := second.hint left.2
    (lower + lower', upper.bind fun n => upper'.map (n + ·))

end Source

end FlatWeights
