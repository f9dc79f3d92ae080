import FlatWeights.Checkpoint.Header
import FlatWeights.Proofs.Checkpoint.File
import Mathlib.Logic.ExistsUnique

/-!
The places of the tensors of a header that was read. A header is checked by one walk over its
tensors in the order of their places, which asks of each that it begins where the one before it ends
and has the bytes that its shape asks for. What the walk leaves behind is `Tiled`: the places follow
each other from the first byte to the last one.

Two things are read off from it. Every place lies inside the data (`Tiled.bounds`), so no sum of the
place of a tensor and the length of the header can be too large once the last one is not. And every
byte of the data belongs to exactly one tensor (`Tiled.existsUnique_covers`); tensors without
elements have places too, but no bytes.
-/

set_option autoImplicit false

namespace FlatWeights

namespace SortedMap

variable {α : Type} {m : SortedMap α} {k : String} {v : α}

/-- In a list in order a key has one entry. -/
theorem lookup_eq_some_iff {l : List (String × α)} (h : (l.map (·.1)).Pairwise (· < ·)) :
    l.lookup k = some v ↔ (k, v) ∈ l := by
  induction l with
  | nil => simp
  | cons e rest ih =>
    obtain ⟨x, u⟩ := e
    simp only [List.map_cons, List.pairwise_cons] at h
    rw [List.lookup_cons]
    by_cases hk : k = x
    · subst hk
      have hrest (hmem : (k, v) ∈ rest) : False :=
        String.lt_irrefl k (h.1 k (List.mem_map.2 ⟨_, hmem, rfl⟩))
      simp only [beq_self_eq_true, Option.some.injEq, List.mem_cons, Prod.mk.injEq, true_and]
      exact ⟨fun hu => .inl hu.symm, fun hu => hu.elim Eq.symm fun hmem => (hrest hmem).elim⟩
    · rw [beq_false_of_ne hk]
      simp [ih h.2, hk]

/-- The value of a name is what stands beside it. -/
theorem find?_eq_some_iff : m.find? k = some v ↔ (k, v) ∈ m.entries := lookup_eq_some_iff m.sorted

/-- The keys are those under which something is found. -/
theorem mem_keys_iff : k ∈ m.keys ↔ ∃ v, m.find? k = some v := by
  simp only [find?_eq_some_iff, keys, List.mem_map, Prod.exists, exists_and_right, exists_eq_right]

end SortedMap

/-! ## One tensor -/

namespace TensorInfo

/-- The place of a tensor has exactly the bytes that its shape asks for, and their number and that
of the elements are sizes. -/
structure Sized (info : TensorInfo) : Prop where
  le : info.start ≤ info.stop
  bytes : (Size.product? info.shape).bind (Size.mul? · info.dtype.width) =
    some (info.stop - info.start)

/-- A byte is in the place of a tensor. -/
def Covers (info : TensorInfo) (i : Nat) : Prop := info.start ≤ i ∧ i < info.stop

variable {info : TensorInfo}

theorem Sized.product (h : info.Sized) : Size.product? info.shape = some info.shape.prod := by
  obtain ⟨count, hcount, -⟩ := Option.bind_eq_some_iff.1 h.bytes
  rw [hcount, Size.product?_eq_some hcount]

theorem Sized.length_eq (h : info.Sized) :
    info.stop - info.start = info.shape.prod * info.dtype.width := by
  have hbytes := h.bytes
  rw [h.product, Option.bind_some] at hbytes
  exact (Size.mul?_eq_some_iff.1 hbytes).1.symm

end TensorInfo

namespace CheckpointHeader

variable {next stop : Nat} {name : String} {info : TensorInfo}
  {tensors : List (String × TensorInfo)}

/-- A tensor has no fault if it starts where the last one stopped and has the bytes its shape says.
-/
theorem faultAt?_eq_none_iff :
    faultAt? next name info = none ↔ info.start = next ∧ info.Sized := by
  unfold faultAt?
  split
  case isTrue h =>
    refine iff_of_false (by simp) fun hall => ?_
    have hle := hall.2.le
    omega
  case isFalse h =>
    have hplace : info.start = next ∧ info.start ≤ info.stop := by omega
    split
    case h_1 hnone => exact iff_of_false (by simp) fun hall => by simp [hall.2.bytes] at hnone
    case h_2 bytes hbytes =>
      split
      case isTrue hne =>
        refine iff_of_false (by simp) fun hall => hne ?_
        exact Option.some.inj (hall.2.bytes.symm.trans hbytes)
      case isFalse heq =>
        exact iff_of_true rfl ⟨hplace.1, hplace.2, hbytes.trans (by rw [Decidable.not_not.1 heq])⟩

/-! ## All of them -/

/-- The places of tensors follow each other from one byte up to another one. -/
inductive Tiled : Nat → List (String × TensorInfo) → Nat → Prop where
  | nil (i : Nat) : Tiled i [] i
  | cons {name : String} {info : TensorInfo} {rest : List (String × TensorInfo)} {stop : Nat} :
    info.Sized → Tiled info.stop rest stop → Tiled info.start ((name, info) :: rest) stop

/-- The walk over the places succeeds exactly where they follow each other. -/
theorem endOf_eq_ok_iff : endOf next tensors = .ok stop ↔ Tiled next tensors stop := by
  induction tensors generalizing next with
  | nil =>
    constructor
    · intro h
      obtain rfl : next = stop := Except.ok.inj h
      exact .nil _
    · intro h
      cases h
      rfl
  | cons e rest ih =>
    obtain ⟨name, info⟩ := e
    rw [endOf]
    constructor
    · intro h
      split at h
      · exact absurd h (by simp)
      · rename_i hfault
        obtain ⟨rfl, hsized⟩ := faultAt?_eq_none_iff.1 hfault
        exact .cons hsized (ih.1 h)
    · intro h
      cases h with
      | cons hsized hrest =>
        rw [faultAt?_eq_none_iff.2 ⟨rfl, hsized⟩]
        exact ih.2 hrest

namespace Tiled

/-- Tensors end behind where they start. -/
theorem le (h : Tiled next tensors stop) : next ≤ stop := by
  induction h with
  | nil => exact Nat.le_refl _
  | cons hsized _ ih => exact Nat.le_trans hsized.le ih

/-- Every place lies between the first byte and the last one. -/
theorem bounds (h : Tiled next tensors stop) :
    ∀ e ∈ tensors, next ≤ e.2.start ∧ e.2.stop ≤ stop ∧ e.2.Sized := by
  induction h with
  | nil => simp
  | cons hsized hrest ih =>
    intro e he
    rcases List.mem_cons.1 he with rfl | he
    · exact ⟨Nat.le_refl _, hrest.le, hsized⟩
    · have hlater := ih e he
      exact ⟨Nat.le_trans hsized.le hlater.1, hlater.2⟩

/-- **Every byte belongs to exactly one tensor.** A byte before the end of the first tensor is in
its place and before all the others; one after it is left to the rest. -/
theorem existsUnique_covers (h : Tiled next tensors stop) {i : Nat} (hnext : next ≤ i)
    (hstop : i < stop) : ∃! e, e ∈ tensors ∧ e.2.Covers i := by
  induction h with
  | nil => omega
  | @cons name info rest stop hsized hrest ih =>
    by_cases hi : i < info.stop
    · refine ⟨(name, info), ⟨List.mem_cons_self, hnext, hi⟩, fun e he => ?_⟩
      rcases List.mem_cons.1 he.1 with rfl | hmem
      · rfl
      · have hlater := (hrest.bounds e hmem).1
        have hcovers := he.2.1
        omega
    · obtain ⟨e, he, hunique⟩ := ih (Nat.not_lt.1 hi) hstop
      refine ⟨e, ⟨List.mem_cons_of_mem _ he.1, he.2⟩, fun e' he' => ?_⟩
      rcases List.mem_cons.1 he'.1 with rfl | hmem
      · exact absurd he'.2.2 hi
      · exact hunique e' ⟨hmem, he'.2⟩

end Tiled

/-- Tensors in the order of their places are the same tensors. -/
theorem mem_byPlace {tensors : SortedMap TensorInfo} {e : String × TensorInfo} :
    e ∈ byPlace tensors ↔ tensors.find? e.1 = some e.2 := by
  rw [byPlace, List.mem_mergeSort, SortedMap.find?_eq_some_iff]

/-! ## A file -/

/-- What makes a file one with a given header. -/
structure Fits (header : CheckpointHeader) (file : Bytes) : Prop where
  size : file.length < Size.limit
  room : lengthWidth ≤ file.length
  length : header.length = LittleEndian.ofBytes (file.take lengthWidth)
  short : header.length ≤ longest
  text : ∃ text, textOf? ((file.drop lengthWidth).take header.length) = some text ∧
    (Json.read? text.toList).bind tensors? = some header.tensors
  tiled : ∃ stop, Tiled 0 (byPlace header.tensors) stop ∧
    lengthWidth + header.length + stop = file.length

/-- A header is read only from a file that it fits. -/
theorem fits_of_ofFile {header : CheckpointHeader} {file : Bytes}
    (h : ofFile file = .ok header) : header.Fits file := by
  unfold ofFile at h
  -- one exit of the reader after the other; only the last one gives a header
  split at h
  · exact absurd h (by simp [fail])
  rename_i hroom
  simp only at h
  split at h
  · exact absurd h (by simp [fail])
  rename_i hshort
  split at h
  · exact absurd h (by simp [fail])
  split at h
  · exact absurd h (by simp [fail])
  rename_i text htext
  split at h
  · exact absurd h (by simp [fail])
  rename_i tensors htensors
  split at h
  · exact absurd h (by simp [fail])
  rename_i stop hend
  split at h
  · exact absurd h (by simp)
  rename_i total htotal
  split at h
  case isFalse => exact absurd h (by simp [fail])
  rename_i hlength
  obtain ⟨part, hpart, hsum⟩ := Option.bind_eq_some_iff.1 htotal
  obtain ⟨rfl, -⟩ := Size.add?_eq_some_iff.1 hpart
  obtain ⟨hsum, hlimit⟩ := Size.add?_eq_some_iff.1 hsum
  obtain rfl := Except.ok.inj h
  refine ⟨by omega, Nat.not_lt.1 hroom, rfl, Nat.not_lt.1 hshort, ⟨text, htext, htensors⟩, stop,
    endOf_eq_ok_iff.1 hend, ?_⟩
  show lengthWidth + LittleEndian.ofBytes (file.take lengthWidth) + stop = file.length
  omega

/-- A file that a header fits is read as this header. -/
theorem Fits.ofFile_eq {header : CheckpointHeader} {file : Bytes} (h : header.Fits file) :
    ofFile file = .ok header := by
  obtain ⟨hsize, hroom, hlength, hshort, ⟨text, htext, htensors⟩, stop, htiled, hstop⟩ := h
  have htotal : (Size.add? stop lengthWidth).bind (Size.add? · header.length) =
      some file.length := by
    refine Option.bind_eq_some_iff.2 ⟨stop + lengthWidth, ?_, ?_⟩
    · exact Size.add?_eq_some_iff.2 ⟨rfl, by omega⟩
    · exact Size.add?_eq_some_iff.2 ⟨by omega, by omega⟩
  rw [ofFile, if_neg (by omega)]
  simp only [← hlength, Nat.not_lt.2 hshort, if_false]
  rw [if_neg (by omega), htext]
  simp only [htensors, endOf_eq_ok_iff.2 htiled, htotal, if_true]

/-- **A header is read from exactly the files that it fits.** -/
theorem ofFile_eq_ok_iff {header : CheckpointHeader} {file : Bytes} :
    ofFile file = .ok header ↔ header.Fits file :=
  ⟨fits_of_ofFile, Fits.ofFile_eq⟩

end CheckpointHeader

end FlatWeights
