import FlatWeights.Checkpoint.File
import FlatWeights.Proofs.Tensor.Split

/-!
What a checkpoint file gives for a key. A tensor of single precision is exactly the words of its
bytes, as many as its shape asks for.
-/

set_option autoImplicit false

namespace FlatWeights

theorem SortedMap.mem_keys_of_find? {α : Type} {m : SortedMap α} {k : String} {v : α}
    (h : m.find? k = some v) : k ∈ m.keys := by
  have hsome : (m.entries.lookup k).isSome := by
    rw [← SortedMap.find?, h]
    rfl
  obtain ⟨entry, hentry, hk⟩ := List.lookup_isSome_iff.1 hsome
  exact List.mem_map.2 ⟨entry, hentry, (eq_of_beq hk).symm⟩

namespace CheckpointFile

variable {file : CheckpointFile} {key : String} {info : TensorInfo} {raw : RawTensor}

/-- The bytes of a tensor among those of the file. -/
def range (file : CheckpointFile) (info : TensorInfo) : Bytes :=
  (file.content.drop (CheckpointHeader.lengthWidth + file.header.length + info.start)).take
    (info.stop - info.start)

/-- The words of a tensor of four bytes each. -/
def words (file : CheckpointFile) (info : TensorInfo) : List Element :=
  (LittleEndian.words 4 (file.range info)).map UInt32.ofNat

/-- A tensor that is made has the elements it was made of, as many as its shape asks for. -/
theorem make_eq_ok {name : String} {shape : Shape} {data : List Element}
    (h : RawTensor.make name shape data = .ok raw) :
    raw = ⟨name, shape, data⟩ ∧ data.length = shape.prod := by
  rw [RawTensor.make] at h
  split at h
  · exact absurd h (by simp)
  · rename_i expected hexpected
    split at h
    · rename_i hlength
      exact ⟨(Except.ok.inj h).symm, by rw [← hlength, Size.product?_eq_some hexpected]⟩
    · exact absurd h (by simp)

/-- A tensor of single precision is read as its words, and its bytes are all in the file. -/
theorem get_of_single (hinfo : file.header.tensors.find? key = some info)
    (hdtype : info.dtype = .f32) (h : file.get key = .ok raw) :
    raw = ⟨key, info.shape, file.words info⟩ ∧ (file.words info).length = info.shape.prod ∧
      (file.range info).length = info.shape.prod * 4 := by
  rw [get, hinfo] at h
  simp only [tensorOf] at h
  split at h
  case h_2 => exact absurd h (by simp)
  case h_1 start stop hstart hstop =>
  obtain ⟨rfl, -⟩ := Size.add?_eq_some_iff.1 hstart
  obtain ⟨rfl, -⟩ := Size.add?_eq_some_iff.1 hstop
  split at h
  · exact absurd h (by simp)
  · rename_i bytes hbytes
    -- the bytes handed over are those between the two places
    have hrange : bytes = file.range info := by
      rw [bytes?] at hbytes
      split at hbytes
      · rw [← Option.some.inj hbytes, range, Nat.add_sub_add_left]
      · exact absurd hbytes (by simp)
    subst hrange
    split at h
    · exact absurd h (by simp)
    · rename_i needed hneeded
      split at h
      · exact absurd h (by simp)
      · rename_i hlength
        rw [hdtype] at h hneeded
        obtain ⟨rfl, hwords⟩ := make_eq_ok h
        refine ⟨rfl, hwords, ?_⟩
        obtain ⟨count, hcount, hwidth⟩ := Option.bind_eq_some_iff.1 hneeded
        rw [Decidable.not_not.1 hlength, ← (Size.mul?_eq_some_iff.1 hwidth).1,
          Size.product?_eq_some hcount]
        rfl

end CheckpointFile

end FlatWeights
