import FlatWeights.Proofs.Tensor.Indexed
import Mathlib.Control.Monad.Basic

/-!
Where the elements of a tensor go when it is cut. An element has one place on each axis (`at?`), and
both cuts move it along the axis that is cut and along no other: a part along the last axis has the
columns from its first one on, the second half along the middle axis has the rows from the first one
behind the cut on. With the number of elements of the pieces this says of every element where it is
found again, and that nothing else is there; that the pieces laid side by side are the tensor is
said besides (`joinLast`, `joinMiddle`).

A cut is refused for its shape, or it is made, but for one kind of tensors without elements. If the
inner axis has length 0, the lengths of the other two are not bounded by the number of elements, and
products of them are formed all the same. No tensor that was made is of this kind (`Fits`).
-/

set_option autoImplicit false

namespace FlatWeights

namespace CanonicalTensor

variable {t : CanonicalTensor} {o m i : Nat}

/-! ## Places -/

/-- The element at a place on each axis, in row-major order. -/
def at? (t : CanonicalTensor) (o m i : Nat) : Option Element :=
  if o < t.dims.outer ∧ m < t.dims.middle ∧ i < t.dims.inner then
    t.data[(o * t.dims.middle + m) * t.dims.inner + i]?
  else none

/-- The element at a place stands where rows and columns count it. -/
theorem at?_eq (ho : o < t.dims.outer) (hm : m < t.dims.middle) (hi : i < t.dims.inner) :
    t.at? o m i = t.data[(o * t.dims.middle + m) * t.dims.inner + i]? :=
  if_pos ⟨ho, hm, hi⟩

/-- A place in a row of a number of rows. -/
theorem place_lt {row rows column width : Nat} (hrow : row < rows) (hcolumn : column < width) :
    row * width + column < rows * width :=
  calc row * width + column < row * width + width := Nat.add_lt_add_left hcolumn _
    _ = (row + 1) * width := (Nat.succ_mul row width).symm
    _ ≤ rows * width := Nat.mul_le_mul_right width hrow

/-- There is an element at each place. -/
theorem exists_at? (h : t.Full) (ho : o < t.dims.outer) (hm : m < t.dims.middle)
    (hi : i < t.dims.inner) : ∃ e, t.at? o m i = some e := by
  have hplace := place_lt (place_lt ho hm) hi
  rw [← h] at hplace
  exact ⟨_, (at?_eq ho hm hi).trans (List.getElem?_eq_getElem hplace)⟩

/-- What stands in the same part of each of several blocks, one block after the other. -/
theorem getElem?_windows {size count start width block offset : Nat} {data : List Element}
    (hdata : data.length = count * size) (hroom : start + width ≤ size) (hblock : block < count)
    (hoffset : offset < width) :
    ((blocks size count data).map fun b => (b.drop start).take width).flatten[
      block * width + offset]? = data[block * size + (start + offset)]? := by
  have hwindow : ∀ window ∈ (blocks size count data).map fun b => (b.drop start).take width,
      window.length = width := by
    intro window hwindow
    obtain ⟨b, hb, rfl⟩ := List.mem_map.1 hwindow
    rw [List.length_take, List.length_drop, length_of_mem_blocks hdata hb]
    omega
  rw [getElem?_flatten_of_width hwindow hoffset, blocks_eq_map, List.map_map, List.getElem?_map,
    List.getElem?_range hblock]
  simp only [Option.map_some, Option.bind_some, Function.comp_apply]
  rw [List.getElem?_take_of_lt hoffset, List.getElem?_drop, List.getElem?_take_of_lt (by omega),
    List.getElem?_drop]

/-! ## The last axis -/

/-- **The elements of a part.** -/
theorem at?_part (h : t.Full) {parts width index : Nat} (hinner : t.dims.inner = parts * width)
    (hindex : index < parts) (ho : o < t.dims.outer) (hm : m < t.dims.middle) (hi : i < width) :
    (t.part width index).at? o m i = t.at? o m (index * width + i) := by
  have hcolumn : index * width + i < t.dims.inner := hinner ▸ place_lt hindex hi
  have hroom : index * width + width ≤ t.dims.inner := by
    rw [hinner, ← Nat.succ_mul]
    exact Nat.mul_le_mul_right width hindex
  rw [at?_eq (t := t.part width index) ho hm hi, at?_eq ho hm hcolumn]
  exact getElem?_windows h hroom (place_lt ho hm) hi

/-- What it means that tensors are the parts of a tensor along its last axis. -/
structure IsCutLast (t : CanonicalTensor) (parts : Nat) (pieces : List CanonicalTensor) : Prop where
  length : pieces.length = parts
  dims : ∀ piece ∈ pieces, piece.dims = ⟨t.dims.outer, t.dims.middle, t.dims.inner / parts⟩
  full : ∀ piece ∈ pieces, piece.Full
  elements : ∀ p piece, pieces[p]? = some piece → ∀ o < t.dims.outer, ∀ m < t.dims.middle,
    ∀ i < t.dims.inner / parts, ∃ e,
      piece.at? o m i = some e ∧ t.at? o m (p * (t.dims.inner / parts) + i) = some e
  joined : joinLast t.dims.outer t.dims.middle pieces = t

/-- The parts of a tensor are its parts along the last axis. -/
theorem isCutLast_parts (h : t.Full) {parts : Nat} (hdivides : parts ∣ t.dims.inner) :
    t.IsCutLast parts ((List.range parts).map (t.part (t.dims.inner / parts))) := by
  have hinner : t.dims.inner = parts * (t.dims.inner / parts) := (Nat.mul_div_cancel' hdivides).symm
  refine ⟨by simp, ?_, ?_, ?_, joinLast_parts h hinner⟩
  · intro piece hpiece
    obtain ⟨index, -, rfl⟩ := List.mem_map.1 hpiece
    rfl
  · intro piece hpiece
    obtain ⟨index, hindex, rfl⟩ := List.mem_map.1 hpiece
    exact part_full h (List.mem_range.1 hindex) hinner
  · intro p piece hpiece o ho m hm i hi
    rw [List.getElem?_map] at hpiece
    obtain ⟨index, hindex, rfl⟩ := Option.map_eq_some_iff.1 hpiece
    obtain ⟨hp, rfl⟩ : p < parts ∧ p = index := by simpa using List.getElem?_eq_some_iff.1 hindex
    -- the element is there, and it is the one at the moved place
    have hmoved := at?_part h hinner hp ho hm hi
    have hpart := part_full h hp hinner
    obtain ⟨e, he⟩ := exists_at? hpart ho hm hi
    exact ⟨e, he, hmoved.symm.trans he⟩

/-- A tensor without elements whose rows are too many for a size. -/
def Countless (t : CanonicalTensor) : Prop :=
  t.dims.inner = 0 ∧ Size.limit ≤ t.dims.outer * t.dims.middle

instance : Decidable t.Countless := inferInstanceAs (Decidable (_ ∧ _))

/-- Rows that are too many for a size have nothing in them. -/
theorem Sized.inner_eq_zero (h : t.Sized) (hrows : Size.limit ≤ t.dims.outer * t.dims.middle) :
    t.dims.inner = 0 := by
  refine Decidable.byContradiction fun hne => ?_
  have hle : t.dims.outer * t.dims.middle ≤ t.data.length := by
    rw [h.full]
    exact Nat.le_mul_of_pos_right _ (Nat.pos_of_ne_zero hne)
  have hlt := h.length_lt
  omega

/-- No tensor that was made is of this kind. -/
theorem Fits.not_countless (h : t.Fits) : ¬ t.Countless :=
  fun hcount => Nat.not_le.2 (fits_iff.1 h).2.1 hcount.2

/-- Parts that would not be of one width are refused. -/
theorem splitLast_of_uneven (name : String) {parts : Nat}
    (h : parts = 0 ∨ ¬ parts ∣ t.dims.inner) :
    t.splitLast name parts = .error (.failed (.shape name (.indivisible t.dims parts))) := by
  rw [splitLast, if_pos (by rwa [ne_eq, ← Nat.dvd_iff_mod_eq_zero])]

/-- Parts of one width are cut, if the rows can be counted and the parts have room in a list. -/
theorem splitLast_of_even (h : t.Sized) (name : String) {parts : Nat} (hparts : parts ≠ 0)
    (hdivides : parts ∣ t.dims.inner) (hcount : ¬ t.Countless)
    (hroom : parts * entryBytes < Size.bufferLimit) :
    ∃ pieces, t.splitLast name parts = .ok pieces ∧ t.IsCutLast parts pieces := by
  have hrows : t.dims.outer * t.dims.middle < Size.limit :=
    Nat.not_le.1 fun hrows => hcount ⟨h.inner_eq_zero hrows, hrows⟩
  have hsplit := (splitLast_of_fits (h.fits_iff.2 hrows) name hparts hdivides hroom).1
  exact ⟨_, hsplit, isCutLast_parts h.full hdivides⟩

/-- A tensor is not cut if the parts do not divide its last axis. -/
theorem splitLast_eq_indivisible_iff {name : String} {parts : Nat} :
    t.splitLast name parts = .error (.failed (.shape name (.indivisible t.dims parts))) ↔
      parts = 0 ∨ ¬ parts ∣ t.dims.inner := by
  refine ⟨fun h => Decidable.byContradiction fun heven => ?_, splitLast_of_uneven name⟩
  rw [splitLast, if_neg (by rwa [ne_eq, ← Nat.dvd_iff_mod_eq_zero])] at h
  simp only at h
  split at h
  · split at h <;> exact absurd h (by simp)
  · exact absurd h (by simp)

/-- A tensor whose parts divide it is not cut if its rows, or the parts, are too many. -/
theorem splitLast_eq_overflow_iff (h : t.Sized) {name : String} {parts : Nat} :
    t.splitLast name parts = .error .overflow ↔ parts ≠ 0 ∧ parts ∣ t.dims.inner ∧
      (t.Countless ∨ Size.bufferLimit ≤ parts * entryBytes) := by
  constructor
  · intro hover
    -- cuts that are not even fail otherwise, and even ones only where a number is too large
    by_cases huneven : parts = 0 ∨ ¬ parts ∣ t.dims.inner
    · rw [splitLast_of_uneven name huneven] at hover
      exact absurd hover (by simp)
    · obtain ⟨hparts, hdivides⟩ := not_or.1 huneven
      have hdivides := Decidable.not_not.1 hdivides
      refine ⟨hparts, hdivides, ?_⟩
      by_cases hcount : t.Countless
      · exact .inl hcount
      · refine .inr (Nat.not_lt.1 fun hroom => ?_)
        obtain ⟨pieces, hsplit, -⟩ := splitLast_of_even h name hparts hdivides hcount hroom
        rw [hsplit] at hover
        exact absurd hover (by simp)
  · rintro ⟨hparts, hdivides, hstops⟩
    exact (splitLast_eq_overflow name hparts hdivides (hstops.imp_left And.right)).1

/-- **The cut along the last axis.** It is refused exactly if the parts would not be of one width.
Else it stops exactly if the rows of a tensor without elements are too many for a size, or the parts
too many for a list; in all other cases it gives the parts. The loops over parts and rows give the
same, and stop where it stops. Of a tensor that was made the rows are never too many. -/
theorem splitLast_exact (h : t.Sized) (name : String) (parts : Nat) :
    t.splitLastAt name parts = t.splitLast name parts ∧
    (t.splitLast name parts = .error (.failed (.shape name (.indivisible t.dims parts))) ↔
      parts = 0 ∨ ¬ parts ∣ t.dims.inner) ∧
    (t.splitLast name parts = .error .overflow ↔ parts ≠ 0 ∧ parts ∣ t.dims.inner ∧
      (t.Countless ∨ Size.bufferLimit ≤ parts * entryBytes)) ∧
    (parts ≠ 0 → parts ∣ t.dims.inner → ¬ t.Countless → parts * entryBytes < Size.bufferLimit →
      ∃ pieces, t.splitLast name parts = .ok pieces ∧ t.IsCutLast parts pieces) ∧
    (t.Fits → ¬ t.Countless) :=
  ⟨splitLastAt_eq h name parts, splitLast_eq_indivisible_iff, splitLast_eq_overflow_iff h,
    splitLast_of_even h name, Fits.not_countless⟩

/-- Rows without elements that are too many for a size, and parts without elements that are too many
for a list. -/
theorem countless_cut :
    let rows : CanonicalTensor := ⟨⟨8589934592, 8589934592, 0⟩, []⟩
    let row : CanonicalTensor := ⟨⟨1, 1, 0⟩, []⟩
    rows.Full ∧ 1 ∣ rows.dims.inner ∧ rows.splitLast "x" 1 = .error .overflow ∧
      row.Full ∧ 9223372036854775808 ∣ row.dims.inner ∧
      row.splitLast "x" 9223372036854775808 = .error .overflow := by
  intro rows row
  exact ⟨rfl, Nat.dvd_zero _, by decide, rfl, Nat.dvd_zero _, by decide⟩

/-- Two slices of three rows, cut in two; then rows without elements, cut in five. -/
theorem splitLast_exact_rows :
    let t : CanonicalTensor := ⟨⟨2, 1, 4⟩, [0, 1, 2, 3, 4, 5, 6, 7]⟩
    let bare : CanonicalTensor := ⟨⟨2, 3, 0⟩, []⟩
    t.Sized ∧ bare.Sized ∧
      t.IsCutLast 2 [⟨⟨2, 1, 2⟩, [0, 1, 4, 5]⟩, ⟨⟨2, 1, 2⟩, [2, 3, 6, 7]⟩] ∧
      bare.IsCutLast 5 (List.replicate 5 bare) ∧
      t.splitLast "x" 3 = .error (.failed (.shape "x" (.indivisible ⟨2, 1, 4⟩ 3))) := by
  intro t bare
  have ht : t.Sized := ⟨rfl, by decide, by decide⟩
  have hbare : bare.Sized := ⟨rfl, by decide, by decide⟩
  have hcut : t.splitLast "x" 2 = .ok [⟨⟨2, 1, 2⟩, [0, 1, 4, 5]⟩, ⟨⟨2, 1, 2⟩, [2, 3, 6, 7]⟩] := by
    decide
  have hcutBare : bare.splitLast "x" 5 = .ok (List.replicate 5 bare) := by decide
  obtain ⟨pieces, hpieces, hparts⟩ := (splitLast_exact ht "x" 2).2.2.2.1 (by decide) ⟨2, rfl⟩
    (by decide) (by decide)
  obtain ⟨piecesBare, hpiecesBare, hpartsBare⟩ := (splitLast_exact hbare "x" 5).2.2.2.1 (by decide)
    ⟨0, rfl⟩ (by decide) (by decide)
  obtain rfl := Except.ok.inj (hpieces.symm.trans hcut)
  obtain rfl := Except.ok.inj (hpiecesBare.symm.trans hcutBare)
  exact ⟨ht, hbare, hparts, hpartsBare, (splitLast_exact ht "x" 3).2.1.2 (.inr (by decide))⟩

/-! ## The middle axis -/

/-- What it means that two tensors are the halves of a tensor along its middle axis. -/
structure IsCutMiddle (t first second : CanonicalTensor) : Prop where
  first_dims : first.dims = ⟨t.dims.outer, (t.dims.middle + 1) / 2, t.dims.inner⟩
  second_dims : second.dims = ⟨t.dims.outer, t.dims.middle / 2, t.dims.inner⟩
  first_full : first.Full
  second_full : second.Full
  first_elements : ∀ o < t.dims.outer, ∀ m < (t.dims.middle + 1) / 2, ∀ i < t.dims.inner, ∃ e,
    first.at? o m i = some e ∧ t.at? o m i = some e
  second_elements : ∀ o < t.dims.outer, ∀ m < t.dims.middle / 2, ∀ i < t.dims.inner, ∃ e,
    second.at? o m i = some e ∧ t.at? o ((t.dims.middle + 1) / 2 + m) i = some e
  joined : joinMiddle first second = t

/-- The rows `start` up to `start + rows` of every slice. -/
def slab (t : CanonicalTensor) (start rows : Nat) : CanonicalTensor :=
  ⟨⟨t.dims.outer, rows, t.dims.inner⟩,
    ((blocks (t.dims.middle * t.dims.inner) t.dims.outer t.data).map fun slice =>
      (slice.drop (start * t.dims.inner)).take (rows * t.dims.inner)).flatten⟩

/-- **The elements of the same rows of every slice.** -/
theorem at?_slab (h : t.Full) (start : Nat) {rows : Nat} (hroom : start + rows ≤ t.dims.middle)
    (ho : o < t.dims.outer) (hm : m < rows) (hi : i < t.dims.inner) :
    (t.slab start rows).at? o m i = t.at? o (start + m) i := by
  have hsize : t.data.length = t.dims.outer * (t.dims.middle * t.dims.inner) := by
    rw [h, Nat.mul_assoc]
  have hinside : start * t.dims.inner + rows * t.dims.inner ≤ t.dims.middle * t.dims.inner := by
    rw [← Nat.add_mul]
    exact Nat.mul_le_mul_right _ hroom
  rw [at?_eq (t := t.slab start rows) ho hm hi, at?_eq ho (by omega) hi]
  have hwindow := getElem?_windows hsize hinside ho (place_lt hm hi)
  simp only [slab, Nat.add_mul, Nat.mul_assoc, Nat.add_assoc]
  exact hwindow

section Middle

variable (h : t.Full) {first second : CanonicalTensor}
  (hsplit : t.splitMiddle = .ok (first, second))

include h hsplit

/-- The first half has the first rows of every slice, the second half has the others. -/
theorem halves_eq_slabs : first = t.slab 0 (headRows t.dims.middle) ∧
    second = t.slab (headRows t.dims.middle) (t.dims.middle - headRows t.dims.middle) := by
  obtain ⟨rfl, rfl⟩ := splitMiddle_eq_ok hsplit
  have hsize : t.data.length = t.dims.outer * (t.dims.middle * t.dims.inner) := by
    rw [h, Nat.mul_assoc]
  refine ⟨by simp [slab], ?_⟩
  -- the second half of a slice goes on to its end
  have hhalf : ∀ slice ∈ blocks (t.dims.middle * t.dims.inner) t.dims.outer t.data,
      (slice.drop (headRows t.dims.middle * t.dims.inner)).take
        ((t.dims.middle - headRows t.dims.middle) * t.dims.inner) =
      slice.drop (headRows t.dims.middle * t.dims.inner) := by
    intro slice hslice
    refine List.take_of_length_le (Nat.le_of_eq ?_)
    rw [List.length_drop, length_of_mem_blocks hsize hslice, Nat.sub_mul]
  rw [slab, List.map_congr_left hhalf]

/-- The halves of a tensor are its halves along the middle axis. -/
theorem isCutMiddle_halves : t.IsCutMiddle first second := by
  have hhead : headRows t.dims.middle = (t.dims.middle + 1) / 2 := rfl
  have hle := headRows_le t.dims.middle
  -- the first half has the odd row
  have htail : t.dims.middle - headRows t.dims.middle = t.dims.middle / 2 := by omega
  obtain ⟨hfirst, hsecond, -⟩ := halves h hsplit
  have hjoined := joinMiddle_splitMiddle h hsplit
  obtain ⟨rfl, rfl⟩ := halves_eq_slabs h hsplit
  rw [htail] at hsecond hjoined ⊢
  refine ⟨rfl, rfl, hfirst, hsecond, ?_, ?_, hjoined⟩
  · intro o ho m hm i hi
    obtain ⟨e, he⟩ := exists_at? hfirst ho hm hi
    have hmoved := at?_slab h 0 (by omega) ho hm hi
    rw [Nat.zero_add] at hmoved
    exact ⟨e, he, hmoved.symm.trans he⟩
  · intro o ho m hm i hi
    obtain ⟨e, he⟩ := exists_at? hsecond ho hm hi
    have hmoved := at?_slab h ((t.dims.middle + 1) / 2) (by omega) ho hm hi
    exact ⟨e, he, hmoved.symm.trans he⟩

end Middle

/-- A tensor without elements of which the rows of the first half, or the rows in front of the last
slice, are too many for a size. -/
def HalvesCountless (t : CanonicalTensor) : Prop :=
  t.dims.inner = 0 ∧ (Size.limit ≤ t.dims.outer * ((t.dims.middle + 1) / 2) ∨
    Size.limit ≤ (t.dims.outer - 1) * t.dims.middle)

instance : Decidable t.HalvesCountless := inferInstanceAs (Decidable (_ ∧ _))

/-- No tensor that was made is of this kind. -/
theorem Fits.not_halvesCountless (h : t.Fits) : ¬ t.HalvesCountless := by
  rintro ⟨-, hhalf | hplace⟩
  · exact Nat.not_le.2 (half_rows_lt (headRows_le t.dims.middle) h) hhalf
  · exact Nat.not_le.2 (places_lt h) hplace

/-- A tensor whose halves can be counted is cut in two. -/
theorem splitMiddle_of_countable (h : t.Sized) (hcount : ¬ t.HalvesCountless) :
    ∃ first second, t.splitMiddle = .ok (first, second) ∧ t.IsCutMiddle first second := by
  have hrows {rows : Nat} (hle : rows ≤ t.dims.outer * t.dims.middle) (hlimit : Size.limit ≤ rows) :
      t.dims.inner = 0 := h.inner_eq_zero (Nat.le_trans hlimit hle)
  have hhalf : t.dims.outer * headRows t.dims.middle < Size.limit := Nat.not_le.1 fun hlimit =>
    hcount ⟨hrows (Nat.mul_le_mul_left _ (headRows_le _)) hlimit, .inl hlimit⟩
  have hplace : (t.dims.outer - 1) * t.dims.middle < Size.limit := Nat.not_le.1 fun hlimit =>
    hcount ⟨hrows (Nat.mul_le_mul_right _ (Nat.sub_le ..)) hlimit, .inr hlimit⟩
  obtain ⟨first, second, hsplit, -⟩ := splitMiddle_of_placed h hhalf hplace
  exact ⟨first, second, hsplit, isCutMiddle_halves h.full hsplit⟩

/-- One whose halves cannot be counted ends the program. -/
theorem splitMiddle_eq_overflow_iff (h : t.Sized) :
    t.splitMiddle = .error .overflow ↔ t.HalvesCountless := by
  refine ⟨fun hover => Decidable.byContradiction fun hcount => ?_, fun hcount => ?_⟩
  · obtain ⟨first, second, hsplit, -⟩ := splitMiddle_of_countable h hcount
    rw [hsplit] at hover
    exact absurd hover (by simp)
  · exact (splitMiddle_eq_overflow hcount.2).1

/-- **The cut along the middle axis.** It stops exactly if, in a tensor without elements, the rows
of the first half or those in front of the last slice are too many for a size; in all other cases it
gives the halves. The loop over slices gives the same, and stops where it stops. Of a tensor that
was made the rows are never too many. -/
theorem splitMiddle_exact (h : t.Sized) :
    t.splitMiddleAt = t.splitMiddle ∧
    (t.splitMiddle = .error .overflow ↔ t.HalvesCountless) ∧
    (¬ t.HalvesCountless →
      ∃ first second, t.splitMiddle = .ok (first, second) ∧ t.IsCutMiddle first second) ∧
    (t.Fits → ¬ t.HalvesCountless) :=
  ⟨splitMiddleAt_eq h, splitMiddle_eq_overflow_iff h, splitMiddle_of_countable h,
    Fits.not_halvesCountless⟩

/-- Without elements, the rows of a first half may be too many for a size, or only those in front of
a last slice. -/
theorem countless_halves :
    let half : CanonicalTensor := ⟨⟨8589934592, 8589934592, 0⟩, []⟩
    let slice : CanonicalTensor := ⟨⟨3, 9223372036854775808, 0⟩, []⟩
    half.Full ∧ half.splitMiddle = .error .overflow ∧
      slice.Full ∧ slice.splitMiddle = .error .overflow := by
  intro half slice
  exact ⟨rfl, by decide, rfl, by decide⟩

/-- Two slices of three rows; then slices of one row without elements, and no slices. -/
theorem splitMiddle_exact_slices :
    let t : CanonicalTensor := ⟨⟨2, 3, 1⟩, [0, 1, 2, 3, 4, 5]⟩
    let bare : CanonicalTensor := ⟨⟨2, 1, 0⟩, []⟩
    t.Sized ∧ bare.Sized ∧ ¬ t.HalvesCountless ∧ ¬ bare.HalvesCountless ∧
      t.IsCutMiddle ⟨⟨2, 2, 1⟩, [0, 1, 3, 4]⟩ ⟨⟨2, 1, 1⟩, [2, 5]⟩ ∧
      bare.IsCutMiddle bare ⟨⟨2, 0, 0⟩, []⟩ := by
  intro t bare
  have ht : t.Sized := ⟨rfl, by decide, by decide⟩
  have hbare : bare.Sized := ⟨rfl, by decide, by decide⟩
  have hcount : ¬ t.HalvesCountless := by decide
  have hcountBare : ¬ bare.HalvesCountless := by decide
  have hcut : t.splitMiddle = .ok (⟨⟨2, 2, 1⟩, [0, 1, 3, 4]⟩, ⟨⟨2, 1, 1⟩, [2, 5]⟩) := by decide
  have hcutBare : bare.splitMiddle = .ok (bare, ⟨⟨2, 0, 0⟩, []⟩) := by decide
  obtain ⟨first, second, hhalves, hparts⟩ := (splitMiddle_exact ht).2.2.1 hcount
  obtain ⟨firstBare, secondBare, hhalvesBare, hpartsBare⟩ :=
    (splitMiddle_exact hbare).2.2.1 hcountBare
  obtain ⟨rfl, rfl⟩ := Prod.mk.inj (Except.ok.inj (hhalves.symm.trans hcut))
  obtain ⟨rfl, rfl⟩ := Prod.mk.inj (Except.ok.inj (hhalvesBare.symm.trans hcutBare))
  exact ⟨ht, hbare, hcount, hcountBare, hparts, hpartsBare⟩

end CanonicalTensor

end FlatWeights
