import FlatWeights.Tensor.Split
import Mathlib.Algebra.Group.Nat.Defs

/-!
Nothing is lost when a tensor is cut along an axis: the pieces laid side by side again are the
tensor. Both cuts are cuts of blocks. Along the last axis every row is cut, so a row of the pieces
together is a row of the tensor; along the middle axis it is every slice of the outer axis.
-/

set_option autoImplicit false

namespace FlatWeights

/-- A product of sizes is the exact product. -/
theorem Size.product?_eq_some {sizes : List Nat} {n : Nat} (h : Size.product? sizes = some n) :
    n = sizes.prod := by
  have hfold : ∀ (start : Nat), sizes.foldlM Size.mul? start = some n → n = start * sizes.prod := by
    clear h
    induction sizes with
    | nil =>
      intro start hstart
      obtain rfl : start = n := Option.some.inj hstart
      simp
    | cons size rest ih =>
      intro start hstart
      rw [List.foldlM_cons] at hstart
      obtain ⟨next, hnext, hrest⟩ := Option.bind_eq_some_iff.1 hstart
      rw [ih next hrest, ← (Size.mul?_eq_some_iff.1 hnext).1, List.prod_cons, Nat.mul_assoc]
  rw [hfold 1 h, Nat.one_mul]

namespace CanonicalTensor

variable {t : CanonicalTensor}

/-- A tensor has as many elements as its axes ask for. -/
def Full (t : CanonicalTensor) : Prop :=
  t.data.length = t.dims.outer * t.dims.middle * t.dims.inner

/-! ## The last axis -/

/-- Rows that were cut and laid side by side again are the rows with their cuts laid side by side.
-/
theorem joinRows_map (cuts : List (List Element → List Element)) (rows : List (List Element)) :
    joinRows (cuts.map fun cut => rows.map cut) rows.length =
      rows.flatMap fun row => cuts.flatMap fun cut => cut row := by
  induction rows with
  | nil => rfl
  | cons row rest ih =>
    have hfirst : (cuts.map fun cut => (row :: rest).map cut).flatMap
        (fun piece => piece.headD []) = cuts.flatMap fun cut => cut row := by
      rw [List.flatMap_map]
      rfl
    have htails : (cuts.map fun cut => (row :: rest).map cut).map List.tail =
        cuts.map fun cut => rest.map cut := by
      rw [List.map_map]
      rfl
    rw [List.length_cons, joinRows, hfirst, htails, ih, List.flatMap_cons]

/-- A row is made up of its parts of equal width. -/
theorem flatMap_parts {width parts : Nat} {row : List Element} (h : row.length = parts * width) :
    (List.range parts).flatMap (fun part => (row.drop (part * width)).take width) = row := by
  rw [List.flatMap_def, ← blocks_eq_map, flatten_blocks width parts row h]

/-- Every row has the columns of every part. -/
theorem length_of_mem_cuts (h : t.Full) {parts width part : Nat} (hpart : part < parts)
    (hinner : t.dims.inner = parts * width) {cut : List Element}
    (hcut : cut ∈ (blocks t.dims.inner (t.dims.outer * t.dims.middle) t.data).map
      fun row => (row.drop (part * width)).take width) : cut.length = width := by
  obtain ⟨row, hrow, rfl⟩ := List.mem_map.1 hcut
  have hlength := length_of_mem_blocks h hrow
  have hroom : (part + 1) * width ≤ parts * width := Nat.mul_le_mul_right width hpart
  rw [Nat.succ_mul] at hroom
  rw [List.length_take, List.length_drop, hlength, hinner]
  omega

/-- The rows of some columns are those columns of the rows. -/
theorem blocks_columns (h : t.Full) {parts width part : Nat} (hpart : part < parts)
    (hinner : t.dims.inner = parts * width) :
    blocks width (t.dims.outer * t.dims.middle)
        (t.columns (t.dims.outer * t.dims.middle) (part * width) width) =
      (blocks t.dims.inner (t.dims.outer * t.dims.middle) t.data).map
        fun row => (row.drop (part * width)).take width := by
  have hblocks := blocks_flatten fun cut hcut => length_of_mem_cuts h hpart hinner hcut
  rw [List.length_map, length_blocks] at hblocks
  rw [columns, List.flatMap_def, hblocks]

/-- The part of a tensor that some columns are. -/
def part (t : CanonicalTensor) (width index : Nat) : CanonicalTensor :=
  ⟨⟨t.dims.outer, t.dims.middle, width⟩,
    t.columns (t.dims.outer * t.dims.middle) (index * width) width⟩

/-- A part has as many elements as its dimensions say. -/
theorem part_full (h : t.Full) {parts width index : Nat} (hindex : index < parts)
    (hinner : t.dims.inner = parts * width) : (t.part width index).Full := by
  have hlength :=
    length_flatten_of_width fun cut hcut => length_of_mem_cuts h hindex hinner hcut
  rw [List.length_map, length_blocks] at hlength
  rw [Full, part, columns, List.flatMap_def, hlength]

/-- A cut along the last axis gives all parts of one width. -/
theorem splitLast_eq_ok {name : String} {parts : Nat} {pieces : List CanonicalTensor}
    (h : t.splitLast name parts = .ok pieces) : ∃ width, t.dims.inner = parts * width ∧
      pieces = (List.range parts).map (t.part width) := by
  rw [splitLast] at h
  split at h
  · exact absurd h (by simp)
  · rename_i hdivides
    obtain ⟨-, hmod⟩ := not_or.1 hdivides
    simp only at h
    split at h
    · rename_i rows _ _ hrows _ _
      have hrows := Size.product?_eq_some hrows
      simp only [List.prod_cons, List.prod_nil, Nat.mul_one] at hrows
      subst hrows
      split at h
      · exact absurd h (by simp)
      refine ⟨t.dims.inner / parts, ?_, (Except.ok.inj h).symm⟩
      exact (Nat.mul_div_cancel' (Nat.dvd_of_mod_eq_zero (Decidable.not_not.1 hmod))).symm
    · exact absurd h (by simp)

/-- The widths of the parts add up. -/
theorem foldr_widths (t : CanonicalTensor) (width : Nat) (indices : List Nat) :
    (indices.map (t.part width)).foldr (fun p total => p.dims.inner + total) 0 =
      indices.length * width := by
  induction indices with
  | nil => simp
  | cons index rest ih =>
    rw [List.map_cons, List.foldr_cons, ih, List.length_cons, Nat.succ_mul, Nat.add_comm]
    rfl

/-- The parts of a tensor laid side by side along the last axis are the tensor. -/
theorem joinLast_parts (h : t.Full) {parts width : Nat} (hinner : t.dims.inner = parts * width) :
    joinLast t.dims.outer t.dims.middle ((List.range parts).map (t.part width)) = t := by
  let rows := blocks t.dims.inner (t.dims.outer * t.dims.middle) t.data
  let cuts := (List.range parts).map fun (part : Nat) (row : List Element) =>
    (row.drop (part * width)).take width
  have hwidth := foldr_widths t width (List.range parts)
  rw [List.length_range, ← hinner] at hwidth
  have hpieces : ((List.range parts).map (t.part width)).map
      (fun p => blocks p.dims.inner (t.dims.outer * t.dims.middle) p.data) =
      cuts.map fun cut => rows.map cut := by
    rw [List.map_map, List.map_map]
    refine List.map_congr_left fun part hpart => ?_
    exact blocks_columns h (List.mem_range.1 hpart) hinner
  have hjoin := joinRows_map cuts rows
  -- each row is cut at the multiples of the width, so its pieces make it up again
  have hrow : ∀ row ∈ rows, (cuts.flatMap fun cut => cut row) = row := by
    intro row hrow
    rw [List.flatMap_map]
    exact flatMap_parts ((length_of_mem_blocks h hrow).trans hinner)
  have hdata : (rows.flatMap fun row => cuts.flatMap fun cut => cut row) = t.data := by
    rw [List.flatMap_def, List.map_congr_left hrow, List.map_id']
    exact flatten_blocks _ _ _ h
  have hcount : rows.length = t.dims.outer * t.dims.middle := length_blocks _ _ _
  rw [hdata, hcount] at hjoin
  rw [joinLast, hpieces, hwidth, hjoin]

/-! ## The middle axis -/

theorem headRows_le (middle : Nat) : headRows middle ≤ middle := by
  unfold headRows
  omega

/-- What a cut along the middle axis gives. -/
theorem splitMiddle_eq_ok {first second : CanonicalTensor}
    (h : t.splitMiddle = .ok (first, second)) :
    first = ⟨⟨t.dims.outer, headRows t.dims.middle, t.dims.inner⟩,
        ((blocks (t.dims.middle * t.dims.inner) t.dims.outer t.data).map
          (·.take (headRows t.dims.middle * t.dims.inner))).flatten⟩ ∧
      second = ⟨⟨t.dims.outer, t.dims.middle - headRows t.dims.middle, t.dims.inner⟩,
        ((blocks (t.dims.middle * t.dims.inner) t.dims.outer t.data).map
          (·.drop (headRows t.dims.middle * t.dims.inner))).flatten⟩ := by
  rw [splitMiddle] at h
  simp only at h
  split at h
  · split at h
    · exact absurd h (by simp)
    obtain ⟨rfl, rfl⟩ := Prod.mk.inj (Except.ok.inj h)
    exact ⟨rfl, rfl⟩
  · exact absurd h (by simp)

/-- The two ends of a list make the list. -/
theorem zipWith_take_drop (n : Nat) (lists : List (List Element)) :
    List.zipWith (· ++ ·) (lists.map (·.take n)) (lists.map (·.drop n)) = lists := by
  induction lists with
  | nil => rfl
  | cons l rest ih =>
    rw [List.map_cons, List.map_cons, List.zipWith_cons_cons, ih, List.take_append_drop]

section Middle

variable (h : t.Full) {first second : CanonicalTensor}
  (hsplit : t.splitMiddle = .ok (first, second))

include h hsplit

/-- The slices of the halves are the halves of the slices, and none is missing. -/
theorem halves : first.Full ∧ second.Full ∧
    blocks (first.dims.middle * first.dims.inner) first.dims.outer first.data =
      (blocks (t.dims.middle * t.dims.inner) t.dims.outer t.data).map
        (·.take (headRows t.dims.middle * t.dims.inner)) ∧
    blocks (second.dims.middle * second.dims.inner) first.dims.outer second.data =
      (blocks (t.dims.middle * t.dims.inner) t.dims.outer t.data).map
        (·.drop (headRows t.dims.middle * t.dims.inner)) := by
  obtain ⟨rfl, rfl⟩ := splitMiddle_eq_ok hsplit
  have hslice : ∀ slice ∈ blocks (t.dims.middle * t.dims.inner) t.dims.outer t.data,
      slice.length = t.dims.middle * t.dims.inner := by
    intro slice hslice
    exact length_of_mem_blocks (by rw [h, Nat.mul_assoc]) hslice
  have hle : headRows t.dims.middle * t.dims.inner ≤ t.dims.middle * t.dims.inner :=
    Nat.mul_le_mul_right _ (headRows_le t.dims.middle)
  have htake : ∀ half ∈ (blocks (t.dims.middle * t.dims.inner) t.dims.outer t.data).map
      (·.take (headRows t.dims.middle * t.dims.inner)),
      half.length = headRows t.dims.middle * t.dims.inner := by
    intro half hhalf
    obtain ⟨slice, hmem, rfl⟩ := List.mem_map.1 hhalf
    rw [List.length_take, hslice slice hmem]
    omega
  have hdrop : ∀ half ∈ (blocks (t.dims.middle * t.dims.inner) t.dims.outer t.data).map
      (·.drop (headRows t.dims.middle * t.dims.inner)),
      half.length = (t.dims.middle - headRows t.dims.middle) * t.dims.inner := by
    intro half hhalf
    obtain ⟨slice, hmem, rfl⟩ := List.mem_map.1 hhalf
    rw [List.length_drop, hslice slice hmem, Nat.sub_mul]
  have htaken := blocks_flatten htake
  have hdropped := blocks_flatten hdrop
  have htakelength := length_flatten_of_width htake
  have hdroplength := length_flatten_of_width hdrop
  rw [List.length_map, length_blocks] at htaken hdropped htakelength hdroplength
  exact ⟨by rw [Full, htakelength, Nat.mul_assoc], by rw [Full, hdroplength, Nat.mul_assoc],
    htaken, hdropped⟩

/-- The two halves of a tensor laid one after the other along the middle axis are the tensor. -/
theorem joinMiddle_splitMiddle : joinMiddle first second = t := by
  obtain ⟨-, -, hfirst, hsecond⟩ := halves h hsplit
  rw [joinMiddle]
  simp only
  rw [hfirst, hsecond, zipWith_take_drop, flatten_blocks]
  · obtain ⟨rfl, rfl⟩ := splitMiddle_eq_ok hsplit
    simp only
    rw [Nat.add_sub_cancel' (headRows_le t.dims.middle)]
  · rw [h, Nat.mul_assoc]

end Middle

end CanonicalTensor

end FlatWeights
