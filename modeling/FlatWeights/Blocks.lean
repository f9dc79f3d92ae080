/-!
Consecutive blocks of equal width, cut from the front of a list.
-/

set_option autoImplicit false

namespace FlatWeights

/-- The first `count` blocks of `width` consecutive elements each. -/
def blocks {α : Type} (width : Nat) : Nat → List α → List (List α)
  | 0, _ => []
  | count + 1, xs => xs.take width :: blocks width count (xs.drop width)

/-- There are as many blocks as asked for. -/
theorem length_blocks {α : Type} (width count : Nat) (xs : List α) :
    (blocks width count xs).length = count := by
  induction count generalizing xs with
  | zero => rfl
  | succ count ih => simp [blocks, ih]

/-- A list as long as its blocks together is what they make up. -/
theorem flatten_blocks {α : Type} (width count : Nat) (xs : List α)
    (h : xs.length = count * width) : (blocks width count xs).flatten = xs := by
  induction count generalizing xs with
  | zero =>
    have : xs = [] := List.eq_nil_of_length_eq_zero (by simpa using h)
    simp [blocks, this]
  | succ count ih =>
    have hd : (xs.drop width).length = count * width := by
      rw [List.length_drop, h, Nat.succ_mul]; omega
    simp [blocks, ih _ hd]

/-- Lists of one width are the blocks of what they make up. -/
theorem blocks_flatten {α : Type} {width : Nat} {lists : List (List α)}
    (h : ∀ l ∈ lists, l.length = width) :
    blocks width lists.length lists.flatten = lists := by
  induction lists with
  | nil => rfl
  | cons l rest ih =>
    have hl : l.length = width := h l (by simp)
    have hrest := ih fun l' hl' => h l' (by simp [hl'])
    rw [List.length_cons, List.flatten_cons, blocks, ← hl, List.take_left, List.drop_left, hl,
      hrest]

/-- Lists of one width together have the width times their number. -/
theorem length_flatten_of_width {α : Type} {width : Nat} {lists : List (List α)}
    (h : ∀ l ∈ lists, l.length = width) : lists.flatten.length = lists.length * width := by
  induction lists with
  | nil => simp
  | cons l rest ih =>
    rw [List.flatten_cons, List.length_append, h l (by simp), ih fun l' hl' => h l' (by simp [hl']),
      List.length_cons, Nat.succ_mul, Nat.add_comm]

theorem length_of_mem_blocks {α : Type} {width count : Nat} {xs b : List α}
    (h : xs.length = count * width) (hb : b ∈ blocks width count xs) : b.length = width := by
  induction count generalizing xs with
  | zero => exact absurd hb (by simp [blocks])
  | succ count ih =>
    rw [Nat.succ_mul] at h
    rcases List.mem_cons.1 hb with rfl | hb
    · rw [List.length_take]
      omega
    · exact ih (by rw [List.length_drop]; omega) hb

/-- Lists of one width stand one after the other in what they make up. -/
theorem getElem?_flatten_of_width {α : Type} {width index offset : Nat} {lists : List (List α)}
    (h : ∀ l ∈ lists, l.length = width) (hoffset : offset < width) :
    lists.flatten[index * width + offset]? = lists[index]?.bind (·[offset]?) := by
  induction lists generalizing index with
  | nil => simp
  | cons l rest ih =>
    have hl : l.length = width := h l (by simp)
    rw [List.flatten_cons]
    cases index with
    | zero =>
      rw [Nat.zero_mul, Nat.zero_add, List.getElem?_append_left (by omega)]
      rfl
    | succ index =>
      rw [Nat.succ_mul, List.getElem?_append_right (by omega), List.getElem?_cons_succ,
        ← ih fun l' hl' => h l' (by simp [hl'])]
      congr 1
      omega

/-- A block is what stands at its place. -/
theorem blocks_eq_map {α : Type} (width count : Nat) (xs : List α) :
    blocks width count xs =
      (List.range count).map fun i => (xs.drop (i * width)).take width := by
  induction count generalizing xs with
  | zero => rfl
  | succ count ih =>
    rw [blocks, ih, List.range_succ_eq_map, List.map_cons, List.map_map, Nat.zero_mul,
      List.drop_zero]
    refine congrArg _ (List.map_congr_left fun i _ => ?_)
    rw [Function.comp_apply, List.drop_drop, Nat.succ_mul, Nat.add_comm width]

end FlatWeights
