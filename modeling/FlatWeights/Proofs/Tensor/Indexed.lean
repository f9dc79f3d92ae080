import FlatWeights.Proofs.Resolver

/-!
The cuts of a tensor by index. The cuts are defined on blocks, which know no places: nothing can be
out of range there, and nothing but the number of elements of a piece is formed as a product. Over a
flat buffer the same cuts are loops over ranges of indices, and each place is a sum of products of
its own: the row before times the length of a row, the columns before times their number, the slice
before times the length of a slice. `splitLastAt`, `splitMiddleAt`, `canonicalAt` and `resolveAt`
are these loops. Every sum and every product in them has to be a size, every range has to lie in the
buffer, and every axis has to be there.

Of a tensor that was made it is known that the product of the whole shape, formed from left to
right, is a size (`Fits`). All the other products group the lengths in another way, and they are
bounded by it only where they are formed: for `[0, 2 ^ 63, 4]` the last two lengths have no product
that is a size, but a loop over no slices never forms it. Where a loop is entered, the lengths
outside of it are not zero, and the number of elements bounds everything that is formed inside.

Where only the number of elements and the lengths are known to be sizes (`Sized`) this can fail in
one way: the inner axis has length 0, and nothing bounds the product of the other two. The cuts then
stop where the loops do (`splitLastAt_eq`, `splitMiddleAt_eq`).
-/

set_option autoImplicit false

namespace FlatWeights

/-- What a loop over a range gives if each round of it gives something. -/
theorem mapM_range_eq_some {α : Type} {n : Nat} {f : Nat → Option α} {g : Nat → α}
    (h : ∀ i < n, f i = some (g i)) : (List.range n).mapM f = some ((List.range n).map g) := by
  have hall : ∀ l : List Nat, (∀ i ∈ l, f i = some (g i)) → l.mapM f = some (l.map g) := by
    intro l hl
    induction l with
    | nil => rfl
    | cons i l ih =>
      rw [List.mapM_cons, hl i (by simp), ih fun j hj => hl j (by simp [hj])]
      rfl
  exact hall _ fun i hi => h i (List.mem_range.1 hi)

/-- A loop over a range gives nothing if one round of it gives nothing. -/
theorem mapM_range_eq_none {α : Type} {n i : Nat} {f : Nat → Option α} (hi : i < n)
    (h : f i = none) : (List.range n).mapM f = none := by
  have hall : ∀ l : List Nat, i ∈ l → l.mapM f = none := by
    intro l hl
    induction l with
    | nil => exact absurd hl (by simp)
    | cons j l ih =>
      rw [List.mapM_cons]
      rcases List.mem_cons.1 hl with rfl | hl
      · rw [h]
        rfl
      · rw [ih hl]
        cases f j <;> rfl
  exact hall _ (List.mem_range.2 hi)

/-! ## Sizes -/

namespace Size

theorem mul?_of_lt {a b : Nat} (h : a * b < limit) : mul? a b = some (a * b) :=
  mul?_eq_some_iff.2 ⟨rfl, h⟩

theorem add?_of_lt {a b : Nat} (h : a + b < limit) : add? a b = some (a + b) :=
  add?_eq_some_iff.2 ⟨rfl, h⟩

/-- Three lengths are multiplied below the limit, from the left. -/
theorem product?_three {a b c n : Nat} : product? [a, b, c] = some n ↔
    a < limit ∧ a * b < limit ∧ a * b * c = n ∧ n < limit := by
  simp only [product?, List.foldlM_cons, List.foldlM_nil, Option.bind_eq_bind,
    Option.bind_eq_some_iff, mul?_eq_some_iff, Option.pure_def, Option.some.injEq, Nat.one_mul]
  constructor
  · rintro ⟨_, ⟨rfl, ha⟩, _, ⟨rfl, hab⟩, _, ⟨rfl, habc⟩, rfl⟩
    exact ⟨ha, hab, rfl, habc⟩
  · rintro ⟨ha, hab, rfl, habc⟩
    exact ⟨a, ⟨rfl, ha⟩, a * b, ⟨rfl, hab⟩, _, ⟨rfl, habc⟩, rfl⟩

theorem product?_three_eq_none {a b c : Nat} (h : limit ≤ a * b) : product? [a, b, c] = none := by
  refine Option.eq_none_iff_forall_ne_some.2 fun n hn => ?_
  exact absurd (product?_three.1 hn).2.1 (Nat.not_lt.2 h)

theorem mul?_eq_none_iff {a b : Nat} : mul? a b = none ↔ limit ≤ a * b := by
  rw [mul?, check?, ite_eq_right_iff, ← Nat.not_lt]
  simp

theorem product?_two {a b n : Nat} :
    product? [a, b] = some n ↔ a < limit ∧ a * b = n ∧ n < limit := by
  simp only [product?, List.foldlM_cons, List.foldlM_nil, Option.bind_eq_bind,
    Option.bind_eq_some_iff, mul?_eq_some_iff, Option.pure_def, Option.some.injEq, Nat.one_mul]
  constructor
  · rintro ⟨_, ⟨rfl, ha⟩, _, ⟨rfl, hab⟩, rfl⟩
    exact ⟨ha, rfl, hab⟩
  · rintro ⟨ha, rfl, hab⟩
    exact ⟨a, ⟨rfl, ha⟩, _, ⟨rfl, hab⟩, rfl⟩

theorem product?_two_eq_none {a b : Nat} (h : limit ≤ a * b) : product? [a, b] = none := by
  refine Option.eq_none_iff_forall_ne_some.2 fun n hn => ?_
  obtain ⟨-, rfl, hn⟩ := product?_two.1 hn
  exact absurd hn (Nat.not_lt.2 h)

end Size

/-! ## Shapes -/

namespace Shape

/-- Take away lengths 1 in front as long as there are more than three. -/
def trimmedAt : Shape → Except Nat Shape
  | [] => .ok []
  | first :: rest =>
    if 3 < (first :: rest).length then
      if first ≠ 1 then .error first else trimmedAt rest
    else .ok (first :: rest)

/-- Put lengths 1 in front as long as there are fewer than three. -/
def paddedAt (s : Shape) : Shape := List.replicate (3 - s.length) 1 ++ s

/-- The lengths at the first three places, if there are as many. -/
def dimsAt? (s : Shape) : Option (Dims Nat) := do return ⟨← s[0]?, ← s[1]?, ← s[2]?⟩

/-- The three-axis form of a shape, by index; `none` stands for a place that is not there. -/
def canonicalAt (s : Shape) : Option (Except Nat (Dims Nat)) :=
  match trimmedAt s with
  | .error first => some (.error first)
  | .ok trimmed => (dimsAt? (paddedAt trimmed)).map .ok

/-- The places that are looked at are there. -/
theorem canonicalAt_eq (s : Shape) : s.canonicalAt = some s.canonical := by
  induction s with
  | nil => rfl
  | cons first rest ih =>
    -- only a shape with more than three lengths is shortened
    match rest, ih with
    | [], _ => rfl
    | [_], _ => rfl
    | [_, _], _ => rfl
    | a :: b :: c :: more, ih =>
      have hlong : 3 < (first :: a :: b :: c :: more).length := by
        simp only [List.length_cons]
        omega
      have hcanonical : canonical (first :: a :: b :: c :: more) =
          if first = 1 then canonical (a :: b :: c :: more) else .error first := by
        rw [canonical]
        all_goals simp
      rw [hcanonical, canonicalAt, trimmedAt, if_pos hlong]
      by_cases hfirst : first = 1
      · rw [if_neg (Decidable.not_not.2 hfirst), if_pos hfirst]
        exact ih
      · rw [if_pos hfirst, if_neg hfirst]

/-- The three-axis form of a shape has the same product, and the same products on the way to it. -/
theorem product?_of_canonical {s : Shape} {dims : Dims Nat} (h : s.canonical = .ok dims) :
    Size.product? dims.toList = Size.product? s := by
  -- a length 1 in front changes neither the product nor the partial products after it
  fun_induction Shape.canonical s with
  | case1 | case2 | case3 | case4 =>
    obtain rfl := Except.ok.inj h
    rfl
  | case5 rest _ _ _ ih => exact ih h
  | case6 => exact absurd h (by simp)

end Shape

/-! ## Cuts -/

namespace CanonicalTensor

variable {t : CanonicalTensor}

/-- The elements from one place up to another one, if the buffer has them. -/
def slice? (data : List Element) (start stop : Nat) : Option (List Element) :=
  if start ≤ stop ∧ stop ≤ data.length then some ((data.drop start).take (stop - start)) else none

/-- The product of the lengths, from left to right, is a size, and it is the number of elements. -/
def Fits (t : CanonicalTensor) : Prop := Size.product? t.dims.toList = some t.data.length

/-- A tensor fits if it has as many elements as its dimensions say and each of their products can be
counted. -/
theorem fits_iff : t.Fits ↔ t.dims.outer < Size.limit ∧
    t.dims.outer * t.dims.middle < Size.limit ∧ t.Full ∧ t.data.length < Size.limit := by
  rw [Fits, Dims.toList, Size.product?_three, Full, eq_comm (a := t.data.length)]

theorem Fits.full (h : t.Fits) : t.Full := (fits_iff.1 h).2.2.1

/-- There are as many elements as the lengths ask for, and a size can count them and the outer axis.
The lengths inside of it need not be sizes, nor any product of lengths but that of all. -/
structure Sized (t : CanonicalTensor) : Prop where
  full : t.Full
  length_lt : t.data.length < Size.limit
  outer_lt : t.dims.outer < Size.limit

theorem Fits.sized (h : t.Fits) : t.Sized :=
  have ⟨houter, _, hfull, hlength⟩ := fits_iff.1 h
  ⟨hfull, hlength, houter⟩

/-- What is missing is that the rows can be counted. -/
theorem Sized.fits_iff (h : t.Sized) : t.Fits ↔ t.dims.outer * t.dims.middle < Size.limit := by
  rw [CanonicalTensor.fits_iff]
  exact ⟨fun hfits => hfits.2.1, fun hrows => ⟨h.outer_lt, hrows, h.full, h.length_lt⟩⟩

/-- One part of one row. -/
def rowAt? (t : CanonicalTensor) (width part row : Nat) : Option (List Element) := do
  let before ← Size.mul? row t.dims.inner
  let start ← Size.add? before (← Size.mul? part width)
  slice? t.data start (← Size.add? start width)

/-- One part of all rows, in a buffer made for it. -/
def partAt? (t : CanonicalTensor) (rows width part : Nat) : Option CanonicalTensor := do
  let _ ← Size.mul? rows width
  let cuts ← (List.range rows).mapM (t.rowAt? width part)
  return ⟨⟨t.dims.outer, t.dims.middle, width⟩, cuts.flatten⟩

/-- The parts along the last axis, one after the other, in a list that has room for them. -/
def partsAt? (t : CanonicalTensor) (parts : Nat) : Option (List CanonicalTensor) := do
  let rows ← Size.mul? t.dims.outer t.dims.middle
  let _ ← Size.buffer? parts entryBytes
  (List.range parts).mapM (t.partAt? rows (t.dims.inner / parts))

/-- The tensor cut along its last axis, by index. -/
def splitLastAt (t : CanonicalTensor) (name : String) (parts : Nat) :
    Except Stop (List CanonicalTensor) :=
  if parts = 0 ∨ t.dims.inner % parts ≠ 0 then
    .error (.failed (.shape name (.indivisible t.dims parts)))
  else match t.partsAt? parts with
    | some pieces => .ok pieces
    | none => .error .overflow

/-- The two halves of one slice of the outer axis. -/
def sliceAt? (t : CanonicalTensor) (head o : Nat) : Option (List Element × List Element) := do
  let base ← Size.mul? (← Size.mul? o t.dims.middle) t.dims.inner
  let cut ← Size.add? base (← Size.mul? head t.dims.inner)
  let first ← slice? t.data base cut
  let stop ← Size.add? base (← Size.mul? t.dims.middle t.dims.inner)
  return (first, ← slice? t.data cut stop)

/-- The halves of all slices, in two buffers made for them. -/
def halvesAt? (t : CanonicalTensor) : Option (CanonicalTensor × CanonicalTensor) := do
  let head := headRows t.dims.middle
  let tail := t.dims.middle - head
  let _ ← Size.mul? (← Size.mul? t.dims.outer head) t.dims.inner
  let _ ← Size.mul? (← Size.mul? t.dims.outer tail) t.dims.inner
  let cuts ← (List.range t.dims.outer).mapM (t.sliceAt? head)
  return (⟨⟨t.dims.outer, head, t.dims.inner⟩, cuts.flatMap (·.1)⟩,
    ⟨⟨t.dims.outer, tail, t.dims.inner⟩, cuts.flatMap (·.2)⟩)

/-- The tensor cut along its middle axis, by index. -/
def splitMiddleAt (t : CanonicalTensor) : Except Stop (CanonicalTensor × CanonicalTensor) :=
  match t.halvesAt? with
  | some halves => .ok halves
  | none => .error .overflow

/-! ### The last axis -/

/-- A part of a row begins and ends in its row, and the row in the buffer. -/
theorem rowAt?_eq (h : t.Fits) {parts width part row : Nat} (hinner : t.dims.inner = parts * width)
    (hpart : part < parts) (hrow : row < t.dims.outer * t.dims.middle) :
    t.rowAt? width part row =
      some ((t.data.drop (row * t.dims.inner + part * width)).take width) := by
  obtain ⟨-, -, hfull, hlimit⟩ := fits_iff.1 h
  have hcolumn : (part + 1) * width ≤ parts * width := Nat.mul_le_mul_right width hpart
  -- there is a row, so the end of this one is a place in the buffer and bounds all that is formed
  have hplace : (row + 1) * t.dims.inner ≤ t.dims.outer * t.dims.middle * t.dims.inner :=
    Nat.mul_le_mul_right t.dims.inner hrow
  rw [Nat.succ_mul, ← hinner] at hcolumn
  rw [Nat.succ_mul, ← hfull] at hplace
  have hbefore := Size.mul?_of_lt (a := row) (b := t.dims.inner) (by omega)
  have hoffset := Size.mul?_of_lt (a := part) (b := width) (by omega)
  have hstart := Size.add?_of_lt (a := row * t.dims.inner) (b := part * width) (by omega)
  have hstop := Size.add?_of_lt (a := row * t.dims.inner + part * width) (b := width) (by omega)
  simp only [rowAt?, hbefore, hoffset, hstart, hstop, Option.bind_eq_bind, Option.bind_some]
  rw [slice?, if_pos ⟨by omega, by omega⟩, Nat.add_sub_cancel_left]

/-- The columns of a tensor are the parts of its rows. -/
theorem columns_eq (t : CanonicalTensor) (rows : Nat) {start width : Nat}
    (hwidth : start + width ≤ t.dims.inner) : t.columns rows start width =
      ((List.range rows).map fun row =>
        (t.data.drop (row * t.dims.inner + start)).take width).flatten := by
  rw [columns, blocks_eq_map, List.flatMap_def, List.map_map]
  refine congrArg _ (List.map_congr_left fun row _ => ?_)
  rw [Function.comp_apply, List.drop_take, List.take_take, List.drop_drop,
    Nat.min_eq_left (by omega)]

/-- No part has more elements than the tensor. -/
theorem part_le (h : t.Fits) {width : Nat} (hwidth : width ≤ t.dims.inner) :
    t.dims.outer * t.dims.middle * width ≤ t.data.length := by
  rw [h.full]
  exact Nat.mul_le_mul_left _ hwidth

/-- Taken by index, a part is the one cut out of the rows. -/
theorem partAt?_eq (h : t.Fits) {parts width part : Nat} (hinner : t.dims.inner = parts * width)
    (hpart : part < parts) :
    t.partAt? (t.dims.outer * t.dims.middle) width part = some (t.part width part) := by
  have hcolumn : (part + 1) * width ≤ parts * width := Nat.mul_le_mul_right width hpart
  rw [Nat.succ_mul, ← hinner] at hcolumn
  have hwidth : width ≤ t.dims.inner := by omega
  have hle := part_le h hwidth
  have hlimit := (fits_iff.1 h).2.2.2
  have hroom := Size.mul?_of_lt (a := t.dims.outer * t.dims.middle) (b := width) (by omega)
  have hcuts := mapM_range_eq_some fun row hrow => rowAt?_eq h hinner hpart hrow
  simp only [partAt?, hroom, hcuts, Option.bind_eq_bind, Option.bind_some]
  rw [CanonicalTensor.part, columns_eq t _ (by omega)]
  rfl

/-- A tensor whose last axis can be cut is cut, and so it is by index. -/
theorem splitLast_of_fits (h : t.Fits) (name : String) {parts : Nat} (hparts : parts ≠ 0)
    (hdivides : parts ∣ t.dims.inner) (hroom : parts * entryBytes < Size.bufferLimit) :
    t.splitLast name parts = .ok ((List.range parts).map (t.part (t.dims.inner / parts))) ∧
      t.splitLastAt name parts = t.splitLast name parts := by
  obtain ⟨houter, hrows, -, hlimit⟩ := fits_iff.1 h
  have hinner : t.dims.inner = parts * (t.dims.inner / parts) := (Nat.mul_div_cancel' hdivides).symm
  have hle := part_le h (Nat.div_le_self t.dims.inner parts)
  -- the products on the way are sizes, because the tensor fits
  have hproduct : Size.product? [t.dims.outer, t.dims.middle] =
      some (t.dims.outer * t.dims.middle) := Size.product?_two.2 ⟨houter, rfl, hrows⟩
  have hpiece : Size.product? [t.dims.outer, t.dims.middle, t.dims.inner / parts] =
      some (t.dims.outer * t.dims.middle * (t.dims.inner / parts)) :=
    Size.product?_three.2 ⟨houter, hrows, rfl, by omega⟩
  have hbuffer : Size.buffer? parts entryBytes = some (parts * entryBytes) := if_pos hroom
  have hpieces := mapM_range_eq_some fun part hpart => partAt?_eq h hinner hpart
  have hcut : ¬ (parts = 0 ∨ t.dims.inner % parts ≠ 0) := by
    rw [Nat.mod_eq_zero_of_dvd hdivides]
    simpa using hparts
  have hsplit : t.splitLast name parts =
      .ok ((List.range parts).map (t.part (t.dims.inner / parts))) := by
    rw [splitLast, if_neg hcut]
    simp only [hproduct, hpiece, hbuffer]
    rw [if_neg (Nat.not_lt.2 (Nat.le_of_eq h.full.symm))]
    rfl
  refine ⟨hsplit, ?_⟩
  rw [hsplit, splitLastAt, if_neg hcut]
  simp only [partsAt?, Size.mul?_of_lt hrows, hbuffer, hpieces, Option.bind_eq_bind,
    Option.bind_some]

/-- A tensor whose rows cannot be counted, or whose parts have no room in a list, is not cut. -/
theorem splitLast_eq_overflow (name : String) {parts : Nat} (hparts : parts ≠ 0)
    (hdivides : parts ∣ t.dims.inner) (h : Size.limit ≤ t.dims.outer * t.dims.middle ∨
      Size.bufferLimit ≤ parts * entryBytes) :
    t.splitLast name parts = .error .overflow ∧ t.splitLastAt name parts = .error .overflow := by
  have hcut : ¬ (parts = 0 ∨ t.dims.inner % parts ≠ 0) := by
    rw [Nat.mod_eq_zero_of_dvd hdivides]
    simpa using hparts
  rw [splitLast, splitLastAt, if_neg hcut, if_neg hcut, partsAt?]
  rcases h with hrows | hroom
  · simp [Size.product?_two_eq_none hrows, Size.mul?_eq_none_iff.2 hrows]
  · have hbuffer := Size.buffer?_eq_none_iff.2 hroom
    cases Size.mul? t.dims.outer t.dims.middle <;> simp [hbuffer]

/-- A part that ends outside of the buffer is not there, whatever can be formed on the way. -/
theorem rowAt?_eq_none {width part row : Nat}
    (h : t.data.length < row * t.dims.inner + part * width + width) :
    t.rowAt? width part row = none := by
  refine Option.eq_none_iff_forall_ne_some.2 fun cut hcut => ?_
  simp only [rowAt?, Option.bind_eq_bind, Option.bind_eq_some_iff, Size.mul?_eq_some_iff,
    Size.add?_eq_some_iff] at hcut
  obtain ⟨_, ⟨rfl, -⟩, _, ⟨rfl, -⟩, _, ⟨rfl, -⟩, _, ⟨rfl, -⟩, hslice⟩ := hcut
  rw [slice?, if_neg fun hplaces => Nat.not_le.2 h hplaces.2] at hslice
  exact absurd hslice (by simp)

/-- A tensor with fewer elements than its lengths ask for is not cut: the last part of its last row
ends outside of the buffer. -/
theorem splitLast_of_short (name : String) {parts : Nat} (hparts : parts ≠ 0)
    (hdivides : parts ∣ t.dims.inner)
    (h : t.data.length < t.dims.outer * t.dims.middle * t.dims.inner) :
    t.splitLast name parts = .error .overflow ∧ t.splitLastAt name parts = .error .overflow := by
  have hcut : ¬ (parts = 0 ∨ t.dims.inner % parts ≠ 0) := by
    rw [Nat.mod_eq_zero_of_dvd hdivides]
    simpa using hparts
  have hrows : 0 < t.dims.outer * t.dims.middle :=
    Nat.pos_of_mul_pos_right (Nat.lt_of_le_of_lt (Nat.zero_le _) h)
  have hend : (t.dims.outer * t.dims.middle - 1) * t.dims.inner +
      (parts - 1) * (t.dims.inner / parts) + t.dims.inner / parts =
      t.dims.outer * t.dims.middle * t.dims.inner := by
    rw [Nat.add_assoc, ← Nat.succ_mul, Nat.succ_eq_add_one,
      Nat.sub_add_cancel (Nat.pos_of_ne_zero hparts), Nat.mul_div_cancel' hdivides,
      ← Nat.succ_mul, Nat.succ_eq_add_one, Nat.sub_add_cancel hrows]
  have hrow := rowAt?_eq_none (t := t) (by rw [hend]; exact h)
  have hpart : t.partAt? (t.dims.outer * t.dims.middle) (t.dims.inner / parts) (parts - 1) =
      none := by
    simp only [partAt?, mapM_range_eq_none (Nat.sub_one_lt (Nat.ne_of_gt hrows)) hrow,
      Option.bind_eq_bind, Option.bind_none, Option.bind_fun_none]
  have hpieces := mapM_range_eq_none (Nat.sub_one_lt hparts) hpart
  constructor
  · rw [splitLast, if_neg hcut]
    simp only
    split
    · rename_i rows _ _ hproduct _ _
      obtain ⟨-, rfl, -⟩ := Size.product?_two.1 hproduct
      rw [if_pos h]
    · rfl
  · have hnone : t.partsAt? parts = none := by
      refine Option.eq_none_iff_forall_ne_some.2 fun pieces hsome => ?_
      simp only [partsAt?, Option.bind_eq_bind, Option.bind_eq_some_iff,
        Size.mul?_eq_some_iff] at hsome
      obtain ⟨_, ⟨rfl, -⟩, _, -, hsome⟩ := hsome
      rw [hpieces] at hsome
      exact absurd hsome (by simp)
    rw [splitLastAt, if_neg hcut, hnone]

/-- **The cut along the last axis by index.** The loops give what the cut gives, and stop where it
stops. -/
theorem splitLastAt_eq (h : t.Sized) (name : String) (parts : Nat) :
    t.splitLastAt name parts = t.splitLast name parts := by
  by_cases hcut : parts = 0 ∨ t.dims.inner % parts ≠ 0
  · rw [splitLastAt, splitLast, if_pos hcut, if_pos hcut]
  · obtain ⟨hparts, hmod⟩ := not_or.1 hcut
    have hdivides := Nat.dvd_of_mod_eq_zero (Decidable.not_not.1 hmod)
    by_cases hstops : Size.limit ≤ t.dims.outer * t.dims.middle ∨
        Size.bufferLimit ≤ parts * entryBytes
    · obtain ⟨hsplit, hsplitAt⟩ := splitLast_eq_overflow name hparts hdivides hstops
      rw [hsplit, hsplitAt]
    · obtain ⟨hrows, hroom⟩ := not_or.1 hstops
      exact (splitLast_of_fits (h.fits_iff.2 (Nat.not_le.1 hrows)) name hparts hdivides
        (Nat.not_le.1 hroom)).2

/-- Where the rows can be counted, a few parts can always be cut. -/
theorem splitLast_ne_overflow (h : t.Fits) (name : String) {parts : Nat}
    (hroom : parts * entryBytes < Size.bufferLimit) :
    t.splitLast name parts ≠ .error .overflow := by
  by_cases hcut : parts = 0 ∨ t.dims.inner % parts ≠ 0
  · rw [splitLast, if_pos hcut]
    simp
  · obtain ⟨hparts, hmod⟩ := not_or.1 hcut
    rw [(splitLast_of_fits h name hparts (Nat.dvd_of_mod_eq_zero (Decidable.not_not.1 hmod))
      hroom).1]
    simp

/-! ### The middle axis -/

/-- The rows in front of the last slice are counted with all rows. -/
theorem places_lt (h : t.Fits) : (t.dims.outer - 1) * t.dims.middle < Size.limit :=
  Nat.lt_of_le_of_lt (Nat.mul_le_mul_right _ (Nat.sub_le ..)) (fits_iff.1 h).2.1

section Middle

variable {head : Nat} (hhead : head ≤ t.dims.middle)

include hhead

/-- No half has more elements than the tensor. -/
theorem half_le (h : t.Full) : t.dims.outer * head * t.dims.inner ≤ t.data.length := by
  rw [h]
  exact Nat.mul_le_mul_right _ (Nat.mul_le_mul_left _ hhead)

/-- The elements of half a tensor can be counted. -/
theorem half_lt (h : t.Sized) : t.dims.outer * head * t.dims.inner < Size.limit :=
  Nat.lt_of_le_of_lt (half_le hhead h.full) h.length_lt

/-- The number of rows of a half is formed before the length of a row is looked at. -/
theorem half_rows_lt (h : t.Fits) : t.dims.outer * head < Size.limit :=
  Nat.lt_of_le_of_lt (Nat.mul_le_mul_left _ hhead) (fits_iff.1 h).2.1

/-- A slice begins and ends in the buffer, and the cut is in the slice. -/
theorem sliceAt?_eq (h : t.Sized) {o : Nat} (ho : o < t.dims.outer)
    (hplace : o * t.dims.middle < Size.limit) :
    t.sliceAt? head o =
      some ((t.data.drop (o * (t.dims.middle * t.dims.inner))).take (head * t.dims.inner),
        (t.data.drop (o * (t.dims.middle * t.dims.inner) + head * t.dims.inner)).take
          (t.dims.middle * t.dims.inner - head * t.dims.inner)) := by
  have hfull := h.full
  have hlimit := h.length_lt
  rw [Full, Nat.mul_assoc] at hfull
  have hslice : (o + 1) * (t.dims.middle * t.dims.inner) ≤
      t.dims.outer * (t.dims.middle * t.dims.inner) := Nat.mul_le_mul_right _ ho
  have hcut : head * t.dims.inner ≤ t.dims.middle * t.dims.inner := Nat.mul_le_mul_right _ hhead
  rw [Nat.succ_mul, ← hfull] at hslice
  have hbase : Size.mul? (o * t.dims.middle) t.dims.inner =
      some (o * (t.dims.middle * t.dims.inner)) :=
    Size.mul?_eq_some_iff.2 ⟨Nat.mul_assoc .., by rw [Nat.mul_assoc]; omega⟩
  rw [sliceAt?, Size.mul?_of_lt hplace, Size.mul?_of_lt (a := head) (b := t.dims.inner) (by omega),
    Size.mul?_of_lt (a := t.dims.middle) (b := t.dims.inner) (by omega)]
  -- the length of a slice and of its first half are all that is left of the shape
  generalize t.dims.middle * t.dims.inner = slice at *
  generalize head * t.dims.inner = cut at *
  have hfirst : slice? t.data (o * slice) (o * slice + cut) =
      some ((t.data.drop (o * slice)).take cut) := by
    rw [slice?, if_pos ⟨by omega, by omega⟩, Nat.add_sub_cancel_left]
  have hsecond : slice? t.data (o * slice + cut) (o * slice + slice) =
      some ((t.data.drop (o * slice + cut)).take (slice - cut)) := by
    rw [slice?, if_pos ⟨by omega, by omega⟩, Nat.add_sub_add_left]
  simp only [hbase, Size.add?_of_lt (a := o * slice) (b := cut) (by omega),
    Size.add?_of_lt (a := o * slice) (b := slice) (by omega), hfirst, hsecond, Option.bind_eq_bind,
    Option.bind_some]
  rfl

end Middle

/-- The halves of a tensor are the halves of its slices, if the rows of the first half can be
counted and the last slice has a place. -/
theorem splitMiddle_of_placed (h : t.Sized)
    (hhalf : t.dims.outer * headRows t.dims.middle < Size.limit)
    (hplace : (t.dims.outer - 1) * t.dims.middle < Size.limit) :
    ∃ first second, t.splitMiddle = .ok (first, second) ∧ t.halvesAt? = some (first, second) := by
  have hhead := headRows_le t.dims.middle
  have htail : t.dims.middle - headRows t.dims.middle ≤ t.dims.middle := Nat.sub_le ..
  have hrest : t.dims.outer * (t.dims.middle - headRows t.dims.middle) < Size.limit := by
    refine Nat.lt_of_le_of_lt (Nat.mul_le_mul_left _ ?_) hhalf
    unfold headRows
    omega
  have hfirst : Size.product? [t.dims.outer, headRows t.dims.middle, t.dims.inner] = some _ :=
    Size.product?_three.2 ⟨h.outer_lt, hhalf, rfl, half_lt hhead h⟩
  have hsecond : Size.product? [t.dims.outer, t.dims.middle - headRows t.dims.middle,
      t.dims.inner] = some _ := Size.product?_three.2 ⟨h.outer_lt, hrest, rfl, half_lt htail h⟩
  have hlast : Size.product? [t.dims.outer - 1, t.dims.middle, t.dims.inner] =
      some ((t.dims.outer - 1) * t.dims.middle * t.dims.inner) := by
    refine Size.product?_three.2 ⟨Nat.lt_of_le_of_lt (Nat.sub_le ..) h.outer_lt, hplace, rfl, ?_⟩
    refine Nat.lt_of_le_of_lt ?_ h.length_lt
    rw [h.full]
    exact Nat.mul_le_mul_right _ (Nat.mul_le_mul_right _ (Nat.sub_le ..))
  -- every slice begins no later than the last one, which has a place
  have hcuts := mapM_range_eq_some fun o ho => by
    refine sliceAt?_eq hhead h ho (Nat.lt_of_le_of_lt (Nat.mul_le_mul_right _ ?_) hplace)
    exact Nat.le_sub_one_of_lt ho
  rw [splitMiddle, halvesAt?]
  simp only [hfirst, hsecond, hlast, Size.mul?_of_lt hhalf, Size.mul?_of_lt (half_lt hhead h),
    Size.mul?_of_lt hrest, Size.mul?_of_lt (half_lt htail h), hcuts, Option.bind_eq_bind,
    Option.bind_some]
  rw [if_neg (Nat.not_lt.2 (Nat.le_of_eq h.full.symm))]
  refine ⟨_, _, rfl, ?_⟩
  rw [blocks_eq_map]
  have hcut : headRows t.dims.middle * t.dims.inner ≤ t.dims.middle * t.dims.inner :=
    Nat.mul_le_mul_right _ hhead
  simp only [List.flatMap_def, List.map_map]
  refine congrArg some (Prod.ext ?_ ?_)
  · refine congrArg (fun lists => CanonicalTensor.mk _ (List.flatten lists))
      (List.map_congr_left fun o _ => ?_)
    simp only [Function.comp_apply, List.take_take, Nat.min_eq_left hcut]
  · refine congrArg (fun lists => CanonicalTensor.mk _ (List.flatten lists))
      (List.map_congr_left fun o _ => ?_)
    simp only [Function.comp_apply, List.drop_take, List.drop_drop]

/-- A tensor is not cut if the rows of its first half cannot be counted or if its last slice has no
place. -/
theorem splitMiddle_eq_overflow
    (h : Size.limit ≤ t.dims.outer * headRows t.dims.middle ∨
      Size.limit ≤ (t.dims.outer - 1) * t.dims.middle) :
    t.splitMiddle = .error .overflow ∧ t.halvesAt? = none := by
  rw [splitMiddle, halvesAt?]
  rcases h with hhalf | hplace
  · simp [Size.product?_three_eq_none hhalf, Size.mul?_eq_none_iff.2 hhalf]
  · -- there is a last slice, and the loop gives up where it looks for it
    have hlast : t.dims.outer - 1 < t.dims.outer := by
      refine Nat.sub_one_lt fun hzero => ?_
      rw [hzero, Nat.zero_sub, Nat.zero_mul] at hplace
      exact absurd hplace (by decide)
    have hslice : t.sliceAt? (headRows t.dims.middle) (t.dims.outer - 1) = none := by
      simp [sliceAt?, Size.mul?_eq_none_iff.2 hplace]
    have hcuts := mapM_range_eq_none hlast hslice
    constructor
    · simp only [Size.product?_three_eq_none hplace]
      split
      · rename_i hnone
        exact absurd hnone (by simp)
      · rfl
    · simp only [hcuts, Option.bind_eq_bind, Option.bind_none, Option.bind_fun_none]

/-- A slice that ends outside of the buffer is not there, whatever can be formed on the way. -/
theorem sliceAt?_eq_none {head o : Nat}
    (h : t.data.length < o * t.dims.middle * t.dims.inner + t.dims.middle * t.dims.inner) :
    t.sliceAt? head o = none := by
  refine Option.eq_none_iff_forall_ne_some.2 fun halves hhalves => ?_
  simp only [sliceAt?, Option.bind_eq_bind, Option.bind_eq_some_iff, Size.mul?_eq_some_iff,
    Size.add?_eq_some_iff] at hhalves
  obtain ⟨_, ⟨rfl, -⟩, _, ⟨rfl, -⟩, _, ⟨rfl, -⟩, _, ⟨rfl, -⟩, _, -, _, ⟨rfl, -⟩, _, ⟨rfl, -⟩, _,
    hslice, -⟩ := hhalves
  rw [slice?, if_neg fun hplaces => Nat.not_le.2 h hplaces.2] at hslice
  exact absurd hslice (by simp)

/-- A tensor with fewer elements than its lengths ask for is not cut: its last slice ends outside of
the buffer. -/
theorem splitMiddle_of_short (h : t.data.length < t.dims.outer * t.dims.middle * t.dims.inner) :
    t.splitMiddle = .error .overflow ∧ t.splitMiddleAt = .error .overflow := by
  have houter : 0 < t.dims.outer := Nat.pos_of_mul_pos_right
    (Nat.pos_of_mul_pos_right (Nat.lt_of_le_of_lt (Nat.zero_le _) h))
  have hend : (t.dims.outer - 1) * t.dims.middle * t.dims.inner + t.dims.middle * t.dims.inner =
      t.dims.outer * t.dims.middle * t.dims.inner := by
    rw [← Nat.add_mul, ← Nat.succ_mul, Nat.succ_eq_add_one, Nat.sub_add_cancel houter]
  have hslice : t.sliceAt? (headRows t.dims.middle) (t.dims.outer - 1) = none :=
    sliceAt?_eq_none (by rw [hend]; exact h)
  have hcuts := mapM_range_eq_none (Nat.sub_one_lt (Nat.ne_of_gt houter)) hslice
  constructor
  · rw [splitMiddle]
    simp only [if_pos h]
    split <;> rfl
  · simp only [splitMiddleAt, halvesAt?, hcuts, Option.bind_eq_bind, Option.bind_none,
      Option.bind_fun_none]

/-- **The cut along the middle axis by index.** The loop gives what the cut gives, and stops where
it stops. -/
theorem splitMiddleAt_eq (h : t.Sized) : t.splitMiddleAt = t.splitMiddle := by
  by_cases hstops : Size.limit ≤ t.dims.outer * headRows t.dims.middle ∨
      Size.limit ≤ (t.dims.outer - 1) * t.dims.middle
  · obtain ⟨hsplit, hhalves⟩ := splitMiddle_eq_overflow hstops
    rw [splitMiddleAt, hsplit, hhalves]
  · obtain ⟨hhalf, hplace⟩ := not_or.1 hstops
    obtain ⟨first, second, hsplit, hhalves⟩ :=
      splitMiddle_of_placed h (Nat.not_le.1 hhalf) (Nat.not_le.1 hplace)
    rw [splitMiddleAt, hsplit, hhalves]

/-- Where the rows can be counted, the middle axis can always be cut. -/
theorem splitMiddle_ne_overflow (h : t.Fits) : t.splitMiddle ≠ .error .overflow := by
  have hhalf := half_rows_lt (headRows_le t.dims.middle) h
  obtain ⟨first, second, hsplit, -⟩ := splitMiddle_of_placed h.sized hhalf (places_lt h)
  rw [hsplit]
  simp

/-! ### The pieces -/

/-- The parts of a tensor that fits do. -/
theorem part_fits (h : t.Fits) {parts width index : Nat} (hinner : t.dims.inner = parts * width)
    (hindex : index < parts) :
    (t.part width index).Fits ∧ (t.part width index).data.length ≤ t.data.length := by
  obtain ⟨houter, hrows, -, hlimit⟩ := fits_iff.1 h
  have hfull := part_full h.full hindex hinner
  have hwidth : width ≤ t.dims.inner := by
    rw [hinner]
    exact Nat.le_mul_of_pos_left width (Nat.zero_lt_of_lt hindex)
  have hle : (t.part width index).data.length ≤ t.data.length := by
    rw [hfull]
    exact part_le h hwidth
  exact ⟨fits_iff.2 ⟨houter, hrows, hfull, by omega⟩, hle⟩

/-- So do its halves. -/
theorem halves_fits (h : t.Fits) {first second : CanonicalTensor}
    (hsplit : t.splitMiddle = .ok (first, second)) :
    (first.Fits ∧ first.data.length ≤ t.data.length) ∧
      second.Fits ∧ second.data.length ≤ t.data.length := by
  obtain ⟨hfirst, hsecond, -⟩ := halves h.full hsplit
  have houter := (fits_iff.1 h).1
  have hhead := headRows_le t.dims.middle
  have htail : t.dims.middle - headRows t.dims.middle ≤ t.dims.middle := Nat.sub_le ..
  have hfirstLe : first.data.length ≤ t.data.length := by
    rw [hfirst, (splitMiddle_eq_ok hsplit).1]
    exact half_le hhead h.full
  have hsecondLe : second.data.length ≤ t.data.length := by
    rw [hsecond, (splitMiddle_eq_ok hsplit).2]
    exact half_le htail h.full
  have hlimit := (fits_iff.1 h).2.2.2
  refine ⟨⟨fits_iff.2 ⟨?_, ?_, hfirst, by omega⟩, hfirstLe⟩,
    fits_iff.2 ⟨?_, ?_, hsecond, by omega⟩, hsecondLe⟩
  all_goals
    obtain ⟨rfl, rfl⟩ := splitMiddle_eq_ok hsplit
  · exact houter
  · exact half_rows_lt (t := t) hhead h
  · exact houter
  · exact half_rows_lt (t := t) htail h

end CanonicalTensor

/-! ## Tensors of a checkpoint -/

namespace RawTensor

variable {raw : RawTensor} {name : String} {shape : Shape} {data : List Element} {dims : Dims Nat}

/-- A tensor is made exactly where the product of its shape is a size and the number of elements. -/
theorem make_eq_ok_iff : make name shape data = .ok raw ↔
    Size.product? shape = some data.length ∧ raw = ⟨name, shape, data⟩ := by
  rw [make]
  cases Size.product? shape with
  | none => simp
  | some expected =>
    by_cases hlength : expected = data.length
    · simp [hlength, eq_comm]
    · simp [hlength]

/-- A tensor that was made fits. -/
theorem fits_of_make (h : make name shape data = .ok raw) (hdims : raw.shape.canonical = .ok dims) :
    CanonicalTensor.Fits ⟨dims, raw.data⟩ := by
  obtain ⟨hproduct, rfl⟩ := make_eq_ok_iff.1 h
  exact (Shape.product?_of_canonical hdims).trans hproduct

end RawTensor

/-- The product of the lengths of an output is a size too, and no output has more elements than the
tensor that it comes from. -/
theorem Layout.Outputs.fits {layout : Layout} {t : CanonicalTensor} {outputs : List OutputTensor}
    (h : layout.Outputs t outputs) (ht : t.Fits) : ∀ out ∈ outputs,
      CanonicalTensor.Fits ⟨out.dims, out.data⟩ ∧ out.data.length ≤ t.data.length := by
  cases layout with
  | dropped =>
    obtain rfl : outputs = [] := h
    simp
  | whole name =>
    obtain rfl : outputs = [t.named name] := h
    intro out hout
    obtain rfl := List.mem_singleton.1 hout
    exact ⟨ht, Nat.le_refl _⟩
  | fusedAttention block ending =>
    obtain ⟨width, hinner, rfl⟩ := h
    have hpart (index : Nat) (hindex : index < 3) := CanonicalTensor.part_fits ht hinner hindex
    rw [List.forall_mem_cons, List.forall_mem_cons, List.forall_mem_singleton]
    exact ⟨hpart 0 (by decide), hpart 1 (by decide), hpart 2 (by decide)⟩
  | chunkedEmbedding stem =>
    obtain ⟨first, second, hsplit, rfl⟩ := h
    rw [List.forall_mem_cons, List.forall_mem_singleton]
    exact CanonicalTensor.halves_fits ht hsplit

namespace Naming

variable {naming : Naming} {raw : RawTensor} {name : String} {shape : Shape} {data : List Element}

/-- The tensors that are written for a stored one, where shapes and elements are taken by index. -/
def resolveAt (naming : Naming) (raw : RawTensor) : Except Stop (List OutputTensor) :=
  match raw.shape.canonicalAt with
  | none => .error .overflow
  | some (.error first) => .error (.failed (.shape raw.name (.leadingLength raw.shape first)))
  | some (.ok dims) =>
    let tensor : CanonicalTensor := ⟨dims, raw.data⟩
    match naming.layout raw.name with
    | .dropped => return []
    | .fusedAttention block ending => do
      let parts ← tensor.splitLastAt raw.name Layout.attentionRoles.length
      return parts.zipWith (fun part role => part.named (Layout.attentionName block ending role))
        Layout.attentionRoles
    | .chunkedEmbedding stem => do
      let (first, second) ← tensor.splitMiddleAt
      return [first.named (stem ++ ".chunk1"), second.named (stem ++ ".chunk2")]
    | .whole name => return [tensor.named name]

/-- The outputs of a tensor that was made have the elements that their shapes ask for. -/
theorem fits_of_resolve (h : RawTensor.make name shape data = .ok raw) {outputs : List OutputTensor}
    (houtputs : naming.resolve raw = .ok outputs) : ∀ out ∈ outputs,
      CanonicalTensor.Fits ⟨out.dims, out.data⟩ ∧ out.data.length ≤ raw.data.length := by
  obtain ⟨dims, hdims, hlayout⟩ := outputs_of_resolve houtputs
  exact hlayout.fits (RawTensor.fits_of_make h hdims)

/-- **Resolving a tensor stays in range.** -/
theorem resolveAt_eq (h : RawTensor.make name shape data = .ok raw) :
    naming.resolveAt raw = naming.resolve raw ∧ naming.resolve raw ≠ .error .overflow := by
  rw [resolveAt, resolve, CanonicalTensor.ofRaw, CanonicalTensor.dimsOf, Shape.canonicalAt_eq]
  cases hdims : raw.shape.canonical with
  | error first => exact ⟨rfl, by simp [bind, Except.bind]⟩
  | ok dims =>
  have hfits := RawTensor.fits_of_make h hdims
  simp only [bind, Except.bind, pure, Except.pure]
  -- only two layouts cut the tensor, and a tensor that fits is cut by index as it is without
  cases naming.layout raw.name with
  | dropped => simp
  | whole name => simp
  | fusedAttention block ending =>
    have hsplit :=
      CanonicalTensor.splitLastAt_eq hfits.sized raw.name Layout.attentionRoles.length
    have hrange := CanonicalTensor.splitLast_ne_overflow hfits raw.name
      (show Layout.attentionRoles.length * CanonicalTensor.entryBytes < _ by decide)
    simp only [hsplit]
    refine ⟨trivial, ?_⟩
    split
    · rename_i stop hstop
      intro hover
      obtain rfl := Except.error.inj hover
      exact hrange hstop
    · simp
  | chunkedEmbedding stem =>
    have hsplit := CanonicalTensor.splitMiddleAt_eq hfits.sized
    have hrange := CanonicalTensor.splitMiddle_ne_overflow hfits
    simp only [hsplit]
    refine ⟨trivial, ?_⟩
    split
    · rename_i stop hstop
      intro hover
      obtain rfl := Except.error.inj hover
      exact hrange hstop
    · simp

end Naming

end FlatWeights
