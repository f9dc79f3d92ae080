import FlatWeights.Proofs.Tensor.Indexed
import Mathlib.Control.Monad.Basic

/-!
The three-axis form of a shape, whatever the number of its axes is. A shape has one exactly if all
lengths in front of the last three are 1; the form then consists of the last three lengths, with
lengths 1 in front where there are fewer. Only lengths 1 come and go, so the number of elements is
the same natural number before and after, also where the product of some of the lengths is no size.

A shape that has no such form is refused for the first length that is not 1. That this is the first
one of the whole shape, and not only of the lengths that have to be 1, is because it stands among
these and they come first (`find?_eq_of_leading`).
-/

set_option autoImplicit false

namespace FlatWeights

theorem Dims.toList_inj {dims dims' : Dims Nat} (h : dims.toList = dims'.toList) :
    dims = dims' := by
  obtain ⟨outer, middle, inner⟩ := dims
  obtain ⟨outer', middle', inner'⟩ := dims'
  simpa [Dims.toList] using h

namespace Shape

variable {s rest : Shape} {first : Nat} {dims : Dims Nat}

/-- The lengths in front of the last three. -/
def leading (s : Shape) : List Nat := s.take (s.length - 3)

/-- The last three lengths, with lengths 1 in front where there are fewer. -/
def lastThree (s : Shape) : List Nat := List.replicate (3 - s.length) 1 ++ s.drop (s.length - 3)

/-! ## One length in front -/

theorem leading_cons (h : 3 ≤ rest.length) : leading (first :: rest) = first :: leading rest := by
  have hlength : (first :: rest).length - 3 = rest.length - 3 + 1 := by
    rw [List.length_cons]
    omega
  rw [leading, hlength, List.take_succ_cons, leading]

theorem lastThree_cons (h : 3 ≤ rest.length) : lastThree (first :: rest) = lastThree rest := by
  have hlength : (first :: rest).length - 3 = rest.length - 3 + 1 := by
    rw [List.length_cons]
    omega
  have hnone : 3 - (first :: rest).length = 3 - rest.length := by
    rw [List.length_cons]
    omega
  rw [lastThree, hlength, hnone, List.drop_succ_cons, lastThree]

/-- A leading length has to be one, and is then left off. -/
theorem canonical_cons (h : 3 ≤ rest.length) :
    canonical (first :: rest) = if first = 1 then canonical rest else .error first := by
  match rest, h with
  | _ :: _ :: _ :: _, _ =>
    rw [canonical]
    all_goals simp

/-- At most three lengths are only filled up. -/
theorem canonical_of_short (h : s.length ≤ 3) :
    s.leading = [] ∧ ∃ dims, s.canonical = .ok dims ∧ dims.toList = s.lastThree := by
  match s, h with
  | [], _ | [_], _ | [_, _], _ | [_, _, _], _ => exact ⟨rfl, _, rfl, rfl⟩

/-! ## All lengths in front -/

/-- **The shapes that have a three-axis form**, and the form. -/
theorem canonical_of_leading {s : Shape} (h : ∀ length ∈ s.leading, length = 1) :
    ∃ dims, s.canonical = .ok dims ∧ dims.toList = s.lastThree := by
  -- each step leaves off one leading length, down to the last three
  induction s with
  | nil => exact (canonical_of_short (by simp)).2
  | cons first rest ih =>
    by_cases hlong : 3 ≤ rest.length
    · rw [leading_cons hlong] at h
      obtain ⟨rfl, hrest⟩ := List.forall_mem_cons.1 h
      rw [canonical_cons hlong, if_pos rfl, lastThree_cons hlong]
      exact ih hrest
    · exact (canonical_of_short (by rw [List.length_cons]; omega)).2

/-- **The shapes that have none**, and the length that is to blame. -/
theorem canonical_of_find? {s : Shape} (h : s.leading.find? (· ≠ 1) = some first) :
    s.canonical = .error first := by
  induction s with
  | nil => exact absurd h (by simp [leading])
  | cons length rest ih =>
    by_cases hlong : 3 ≤ rest.length
    · rw [leading_cons hlong] at h
      rw [canonical_cons hlong]
      by_cases hone : length = 1
      · rw [if_pos hone]
        rw [List.find?_cons_of_neg (by simpa using hone)] at h
        exact ih h
      · rw [if_neg hone]
        rw [List.find?_cons_of_pos (by simpa using hone)] at h
        exact congrArg _ (Option.some.inj h)
    · rw [(canonical_of_short (by rw [List.length_cons]; omega)).1] at h
      exact absurd h (by simp)

/-- The first length that is to blame is the first one of the shape that is not 1. -/
theorem find?_eq_of_leading (h : s.leading.find? (· ≠ 1) = some first) :
    s.find? (· ≠ 1) = some first := by
  rw [← List.take_append_drop (s.length - 3) s, List.find?_append, ← leading, h]
  rfl

theorem leading_ones_or_find? (s : Shape) :
    (∀ length ∈ s.leading, length = 1) ∨ ∃ first, s.leading.find? (· ≠ 1) = some first := by
  cases hfind : s.leading.find? (· ≠ 1) with
  | none =>
    exact .inl fun length hlength => by simpa using List.find?_eq_none.1 hfind length hlength
  | some first => exact .inr ⟨first, rfl⟩

/-- A shape has three dimensions exactly when the lengths before the last three are ones. -/
theorem canonical_eq_ok_iff :
    s.canonical = .ok dims ↔ (∀ length ∈ s.leading, length = 1) ∧ dims.toList = s.lastThree := by
  constructor
  · intro h
    rcases s.leading_ones_or_find? with hleading | ⟨first, hfind⟩
    · obtain ⟨dims', hdims', hlist⟩ := canonical_of_leading hleading
      obtain rfl : dims' = dims := Except.ok.inj (hdims'.symm.trans h)
      exact ⟨hleading, hlist⟩
    · rw [canonical_of_find? hfind] at h
      exact absurd h (by simp)
  · rintro ⟨hleading, hlist⟩
    obtain ⟨dims', hdims', hlist'⟩ := canonical_of_leading hleading
    rw [hdims', Dims.toList_inj (hlist'.trans hlist.symm)]

/-- The fault is the first leading length that is not one. -/
theorem canonical_eq_error_iff :
    s.canonical = .error first ↔ s.leading.find? (· ≠ 1) = some first := by
  refine ⟨fun h => ?_, canonical_of_find?⟩
  rcases s.leading_ones_or_find? with hleading | ⟨first', hfind⟩
  · obtain ⟨dims, hdims, -⟩ := canonical_of_leading hleading
    rw [hdims] at h
    exact absurd h (by simp)
  · rw [canonical_of_find? hfind] at h
    rw [hfind, Except.error.inj h]

/-- The three-axis form is its own three-axis form. -/
theorem canonical_toList (dims : Dims Nat) : canonical dims.toList = .ok dims := rfl

end Shape

/-! ## Tensors -/

namespace CanonicalTensor

variable {name : String} {shape : Shape} {dims : Dims Nat} {stop : Stop}

theorem dimsOf_eq_ok_iff : dimsOf name shape = .ok dims ↔ shape.canonical = .ok dims := by
  rw [dimsOf]
  cases shape.canonical <;> simp

theorem dimsOf_eq_error_iff : dimsOf name shape = .error stop ↔ ∃ first,
    shape.canonical = .error first ∧ stop = .failed (.shape name (.leadingLength shape first)) := by
  rw [dimsOf]
  cases shape.canonical <;> simp [eq_comm]

/-- A tensor keeps its data and takes the dimensions of its shape. -/
theorem ofRaw_eq_ok_iff {raw : RawTensor} {t : CanonicalTensor} :
    ofRaw raw = .ok t ↔ dimsOf raw.name raw.shape = .ok t.dims ∧ t.data = raw.data := by
  obtain ⟨dims, data⟩ := t
  rw [ofRaw]
  cases dimsOf raw.name raw.shape <;> simp [bind, Except.bind, pure, Except.pure, eq_comm]

/-- **Three axes from any number of axes.** There is a three-axis form exactly if each length in
front of the last three is 1. It consists of the last three lengths behind lengths 1, asks for the
same number of elements, and has itself as its form. Otherwise the first length that is not 1 is
named. A tensor that was made keeps its elements, and they are as many as its three axes ask for,
with a product that is formed in sizes. -/
theorem dimsOf_exact (name : String) (shape : Shape) :
    ((∃ dims, dimsOf name shape = .ok dims) ↔ ∀ length ∈ shape.leading, length = 1) ∧
    (∀ dims, dimsOf name shape = .ok dims → dims.toList = shape.lastThree ∧
      dims.toList.prod = shape.prod ∧ ∀ other, dimsOf other dims.toList = .ok dims) ∧
    (∀ stop, dimsOf name shape = .error stop → ∃ first, shape.find? (· ≠ 1) = some first ∧
      ∃ failure, stop = .failed failure ∧ failure.message = "Shape error in tensor '" ++ name ++
        "': " ++ ("cannot reduce " ++ shape.render ++ " to rank 3: leading dimension is " ++
          first.repr ++ ", not 1")) ∧
    ∀ data raw t, RawTensor.make name shape data = .ok raw → ofRaw raw = .ok t →
      dimsOf name shape = .ok t.dims ∧ t.data = data ∧ t.dims.toList.prod = t.data.length ∧
        t.Fits := by
  have hprod {dims : Dims Nat} (h : shape.canonical = .ok dims) :
      dims.toList.prod = shape.prod := by
    rw [Shape.prod_eq_of_canonical h]
    simp [Dims.toList, Nat.mul_assoc]
  refine ⟨⟨?_, ?_⟩, ?_, ?_, ?_⟩
  · rintro ⟨dims, h⟩
    exact (Shape.canonical_eq_ok_iff.1 (dimsOf_eq_ok_iff.1 h)).1
  · intro h
    obtain ⟨dims, hdims, -⟩ := Shape.canonical_of_leading h
    exact ⟨dims, dimsOf_eq_ok_iff.2 hdims⟩
  · intro dims h
    have hdims := dimsOf_eq_ok_iff.1 h
    exact ⟨(Shape.canonical_eq_ok_iff.1 hdims).2, hprod hdims,
      fun _ => dimsOf_eq_ok_iff.2 (Shape.canonical_toList dims)⟩
  · intro stop h
    obtain ⟨first, hfirst, rfl⟩ := dimsOf_eq_error_iff.1 h
    exact ⟨first, Shape.find?_eq_of_leading (Shape.canonical_eq_error_iff.1 hfirst), _, rfl, rfl⟩
  · rintro data raw ⟨dims, elements⟩ hmake hraw
    obtain ⟨hdims, rfl⟩ := ofRaw_eq_ok_iff.1 hraw
    have hcanonical := dimsOf_eq_ok_iff.1 hdims
    have hfits := RawTensor.fits_of_make hmake hcanonical
    obtain ⟨hcount, rfl⟩ := RawTensor.make_eq_ok_iff.1 hmake
    exact ⟨hdims, rfl, (hprod hcanonical).trans (Size.product?_eq_some hcount).symm, hfits⟩

/-- Two lengths 1 in front of three lengths with a zero; then a two where a one has to be. -/
theorem dimsOf_exact_five :
    RawTensor.make "x" [1, 1, 0, 1, 7] [] = .ok ⟨"x", [1, 1, 0, 1, 7], []⟩ ∧
      ofRaw ⟨"x", [1, 1, 0, 1, 7], []⟩ = .ok ⟨⟨0, 1, 7⟩, []⟩ ∧ Fits ⟨⟨0, 1, 7⟩, []⟩ ∧
      dimsOf "y" [0, 1, 7] = .ok ⟨0, 1, 7⟩ ∧ ¬ ∃ dims, dimsOf "x" [1, 2, 1, 5, 6] = .ok dims := by
  obtain ⟨-, hform, -, hmade⟩ := dimsOf_exact "x" [1, 1, 0, 1, 7]
  have hmake : RawTensor.make "x" [1, 1, 0, 1, 7] [] = .ok ⟨"x", [1, 1, 0, 1, 7], []⟩ := by decide
  have hraw : ofRaw ⟨"x", [1, 1, 0, 1, 7], []⟩ = .ok ⟨⟨0, 1, 7⟩, []⟩ := by decide
  obtain ⟨hdims, -, -, hfits⟩ := hmade _ _ _ hmake hraw
  refine ⟨hmake, hraw, hfits, (hform _ hdims).2.2 "y", fun hex => ?_⟩
  have htwo := (dimsOf_exact "x" [1, 2, 1, 5, 6]).1.1 hex 2 (by decide)
  exact absurd htwo (by decide)

end CanonicalTensor

end FlatWeights
