import FlatWeights.Proofs.Checkpoint.Header
import FlatWeights.Proofs.Text.ByteOrder

/-!
Reading an opened checkpoint file. Once the header of a file was accepted, nothing that is read from
it later can be out of place: for each key there is a tensor, its bytes are in the file, and they
are as many as its shape asks for (`CheckpointFile.get_of_opened`). What is left to fail is the type
of the elements.

The statement on the elements goes back to the bytes of the file and not to the list of blocks that
the reader makes of them: element `i` of a tensor is what stands `i` widths after its first byte,
which stands after the length of the header, the header, and the tensors before it.
-/

set_option autoImplicit false

namespace FlatWeights

namespace Element

/-- How the number that stands for one element is read, where elements of its type are read. -/
def reader? : Dtype → Option (Nat → Element)
  | .f32 => some UInt32.ofNat
  | .f16 => some ofHalf
  | .bf16 => some ofShort
  | .f64 => some ofDouble
  | _ => none

/-- Bytes are read in groups of the width of one element. -/
theorem decode?_eq (dtype : Dtype) (bytes : Bytes) :
    decode? dtype bytes =
      (reader? dtype).map fun read => (LittleEndian.words dtype.width bytes).map read := by
  cases dtype <;> rfl

end Element

theorem Dtype.width_pos (dtype : Dtype) : 0 < dtype.width := by
  cases dtype <;> decide

/-- Numbers of one width, one after the other, each at its place. -/
theorem LittleEndian.words_take_drop (content : Bytes) (start count : Nat) {width : Nat}
    (hwidth : 0 < width) (hcontent : start + count * width ≤ content.length) :
    words width ((content.drop start).take (count * width)) =
      (List.range count).map fun i => ofBytes ((content.drop (start + i * width)).take width) := by
  have hlength : ((content.drop start).take (count * width)).length / width = count := by
    rw [List.length_take_of_le (by rw [List.length_drop]; omega), Nat.mul_div_cancel _ hwidth]
  rw [words, hlength, blocks_eq_map, List.map_map]
  refine List.map_congr_left fun i hi => ?_
  have hroom : (i + 1) * width ≤ count * width := Nat.mul_le_mul_right width (List.mem_range.1 hi)
  rw [Nat.succ_mul] at hroom
  rw [Function.comp_apply, List.drop_take, List.take_take, List.drop_drop,
    Nat.min_eq_left (by omega)]

namespace CheckpointFile

variable {path : Path} {content : Bytes} {file : CheckpointFile} {key : String} {info : TensorInfo}

/-- The first byte after the header. -/
def dataStart (file : CheckpointFile) : Nat :=
  CheckpointHeader.lengthWidth + file.header.length

/-- The number that stands for element `i` of a tensor: it is `i` widths after the first byte. -/
def elementAt (file : CheckpointFile) (info : TensorInfo) (i : Nat) : Nat :=
  LittleEndian.ofBytes <|
    (file.content.drop (file.dataStart + info.start + i * info.dtype.width)).take info.dtype.width

/-- What a tensor that was announced under a key is read as: element by element, or not at all where
elements of its type are not read. -/
def reading (file : CheckpointFile) (key : String) (info : TensorInfo) : Except Stop RawTensor :=
  match Element.reader? info.dtype with
  | some read =>
    .ok ⟨key, info.shape, (List.range info.shape.prod).map fun i => read (file.elementAt info i)⟩
  | none => .error (.failed (.tensorRead key (.unsupported info.dtype)))

/-- The tensor of a key is read from a byte of the file. -/
def Reads (file : CheckpointFile) (key : String) (i : Nat) : Prop :=
  ∃ info, file.header.tensors.find? key = some info ∧
    file.dataStart + info.start ≤ i ∧ i < file.dataStart + info.stop

/-- A file is opened if its header fits its content. -/
theorem ofContent_eq_ok_iff :
    ofContent path content = .ok file ↔ file.content = content ∧ file.header.Fits content := by
  rw [← CheckpointHeader.ofFile_eq_ok_iff, ofContent]
  constructor
  · intro h
    split at h
    · rename_i header hheader
      obtain rfl := Except.ok.inj h
      exact ⟨rfl, hheader⟩
    · exact absurd h (by simp)
    · exact absurd h (by simp)
  · rintro ⟨rfl, hheader⟩
    rw [hheader]

/-- The place of every tensor lies in the file. -/
theorem place_of_opened (h : ofContent path content = .ok file)
    (hinfo : file.header.tensors.find? key = some info) :
    info.Sized ∧ file.dataStart + info.stop ≤ content.length ∧ content.length < Size.limit := by
  obtain ⟨-, hfits⟩ := ofContent_eq_ok_iff.1 h
  obtain ⟨stop, htiled, hstop⟩ := hfits.tiled
  have hmem : (key, info) ∈ CheckpointHeader.byPlace file.header.tensors :=
    CheckpointHeader.mem_byPlace.2 hinfo
  obtain ⟨-, hbound, hsized⟩ := htiled.bounds _ hmem
  refine ⟨hsized, ?_, hfits.size⟩
  rw [dataStart, ← hstop]
  exact Nat.add_le_add_left hbound _

/-- **Every tensor of an opened file is read**, or its elements are of a type that is not read. None
of the sums and products on the way is too large, and none of the checks on the way fails. -/
theorem get_of_opened (h : ofContent path content = .ok file)
    (hinfo : file.header.tensors.find? key = some info) :
    file.get key = file.reading key info := by
  obtain ⟨hsized, hstop, hlimit⟩ := place_of_opened h hinfo
  have hle := hsized.le
  have hlength := hsized.length_eq
  obtain ⟨rfl, -⟩ := ofContent_eq_ok_iff.1 h
  have hadd (n : Nat) (hn : file.dataStart + n < Size.limit) :
      Size.add? (CheckpointHeader.lengthWidth + file.header.length) n =
        some (file.dataStart + n) := Size.add?_eq_some_iff.2 ⟨rfl, hn⟩
  -- the bytes are in the file
  have hbytes : bytes? file.content (file.dataStart + info.start) (file.dataStart + info.stop) =
      some ((file.content.drop (file.dataStart + info.start)).take
        (info.shape.prod * info.dtype.width)) := by
    rw [bytes?, if_pos ⟨by omega, hstop⟩, Nat.add_sub_add_left, hlength]
  have hcount : ((file.content.drop (file.dataStart + info.start)).take
      (info.shape.prod * info.dtype.width)).length = info.shape.prod * info.dtype.width :=
    List.length_take_of_le (by rw [List.length_drop]; omega)
  -- the words of the bytes are the elements
  have hwords := LittleEndian.words_take_drop file.content (file.dataStart + info.start)
    info.shape.prod info.dtype.width_pos (by omega)
  rw [get, hinfo]
  simp only [tensorOf, hadd info.start (by omega), hadd info.stop (by omega), hbytes, hsized.bytes,
    hcount, hlength, ne_eq, not_true_eq_false, if_false, Element.decode?_eq, hwords]
  unfold reading
  cases Element.reader? info.dtype with
  | none => rfl
  | some read =>
    simp only [Option.map_some, List.map_map]
    rw [RawTensor.make, hsized.product]
    simp only [List.length_map, List.length_range, if_true]
    rfl

/-- Each byte after the header is read for exactly one tensor. -/
theorem existsUnique_reads (h : ofContent path content = .ok file) {i : Nat}
    (hstart : file.dataStart ≤ i) (hi : i < content.length) : ∃! key, file.Reads key i := by
  obtain ⟨-, hfits⟩ := ofContent_eq_ok_iff.1 h
  obtain ⟨stop, htiled, hstop⟩ := hfits.tiled
  have hbound : i - file.dataStart < stop := by
    rw [dataStart] at hstart ⊢
    omega
  obtain ⟨e, ⟨hmem, hcovers⟩, hunique⟩ :=
    htiled.existsUnique_covers (Nat.zero_le (i - file.dataStart)) hbound
  -- the places of the header count from the end of the header, the file from its first byte
  have hshift (info : TensorInfo) : info.Covers (i - file.dataStart) ↔
      file.dataStart + info.start ≤ i ∧ i < file.dataStart + info.stop := by
    unfold TensorInfo.Covers
    omega
  refine ⟨e.1, ⟨e.2, CheckpointHeader.mem_byPlace.1 hmem, (hshift e.2).1 hcovers⟩, ?_⟩
  rintro key ⟨info, hinfo, hreads⟩
  have hsame := hunique (key, info)
    ⟨CheckpointHeader.mem_byPlace.2 hinfo, (hshift info).2 hreads⟩
  exact congrArg Prod.fst hsame

/-- The keys come in the order of their bytes, each of them once. -/
theorem keys_bytes_pairwise (file : CheckpointFile) :
    (file.checkpoint.keys.map Text.bytes).Pairwise (· < ·) :=
  List.pairwise_map.2 (file.header.tensors.keys_pairwise.imp Text.bytes_lt_iff.2)

/-- **Reading is total and tiles the file.** Of a file that was opened, the keys come in the order
of their bytes; each of them gives the tensor that the header announces, from bytes that are all in
the file, or the one failure that is left; and every byte behind the header is read for exactly one
key. -/
theorem reading_of_opened (h : ofContent path content = .ok file) :
    (file.checkpoint.keys.map Text.bytes).Pairwise (· < ·) ∧
    file.dataStart = 8 + LittleEndian.ofBytes (content.take 8) ∧
    (∀ key ∈ file.checkpoint.keys, ∃ info, file.header.tensors.find? key = some info ∧
      file.checkpoint.get key = file.reading key info ∧
      info.stop - info.start = info.shape.prod * info.dtype.width ∧
      file.dataStart + info.stop ≤ content.length) ∧
    ∀ i, file.dataStart ≤ i → i < content.length → ∃! key, file.Reads key i := by
  refine ⟨file.keys_bytes_pairwise, ?_, fun key hkey => ?_, fun i => existsUnique_reads h⟩
  · rw [dataStart, (ofContent_eq_ok_iff.1 h).2.length]
    rfl
  · obtain ⟨info, hinfo⟩ := SortedMap.mem_keys_iff.1 hkey
    obtain ⟨hsized, hstop, -⟩ := place_of_opened h hinfo
    exact ⟨info, hinfo, get_of_opened h hinfo, hsized.length_eq, hstop⟩

/-! ### Files made of a description -/

/-- The file of a description with the bytes of its tensors. -/
def layOut (description : String) (data : Bytes) : Bytes :=
  LittleEndian.toBytes CheckpointHeader.lengthWidth (Text.bytes description).length ++
    (Text.bytes description ++ data)

/-- A text is read back from its bytes. -/
theorem textOf?_bytes (text : String) : CheckpointHeader.textOf? (Text.bytes text) = some text :=
  dif_pos text.isValidUTF8

/-- A file is opened that is made of a description of tensors and of as many bytes as these take,
one tensor after the other. -/
theorem ofContent_layOut {description : String} {tensors : SortedMap TensorInfo} {data : Bytes}
    (htensors : (Json.read? description.toList).bind CheckpointHeader.tensors? = some tensors)
    (hshort : (Text.bytes description).length ≤ CheckpointHeader.longest)
    (htiled : CheckpointHeader.Tiled 0 (CheckpointHeader.byPlace tensors) data.length)
    (hsize : (layOut description data).length < Size.limit) :
    ofContent path (layOut description data) =
      .ok ⟨layOut description data, ⟨(Text.bytes description).length, tensors⟩⟩ := by
  have hlength : (layOut description data).length =
      CheckpointHeader.lengthWidth + ((Text.bytes description).length + data.length) := by
    rw [layOut, List.length_append, List.length_append, LittleEndian.length_toBytes]
  have hhead : (layOut description data).take CheckpointHeader.lengthWidth =
      LittleEndian.toBytes CheckpointHeader.lengthWidth (Text.bytes description).length :=
    List.take_left' (LittleEndian.length_toBytes ..)
  have htail : (layOut description data).drop CheckpointHeader.lengthWidth =
      Text.bytes description ++ data := List.drop_left' (LittleEndian.length_toBytes ..)
  refine ofContent_eq_ok_iff.2 ⟨rfl, hsize, by omega, ?_, hshort, ⟨description, ?_, htensors⟩,
    data.length, htiled, ?_⟩
  · rw [hhead]
    refine (LittleEndian.ofBytes_toBytes _ _ ?_).symm
    show (Text.bytes description).length < Size.limit
    omega
  · rw [htail, List.take_left]
    exact textOf?_bytes description
  · rw [hlength, Nat.add_assoc]

/-- Three tensors: two numbers of half precision, three small integers, and one without elements
whose last two lengths have no product. -/
def description : String :=
  "\x7b\"c\":[\"F16\",[2,1],[3,7]],\"a\":[\"U8\",[3],[0,3]]," ++
    "\"b\":[\"F32\",[0,9223372036854775808,4],[3,3]]\x7d"

/-- The file of these tensors. The second number of half precision is none. -/
def mixed : CheckpointFile where
  content := layOut description [1, 2, 3, 0, 60, 1, 126]
  header := ⟨(Text.bytes description).length, SortedMap.ofList
    [("a", ⟨.u8, [3], 0, 3⟩), ("b", ⟨.f32, [0, 9223372036854775808, 4], 3, 3⟩),
      ("c", ⟨.f16, [2, 1], 3, 7⟩)]⟩

theorem ofContent_mixed : ofContent "mixed" mixed.content = .ok mixed := by
  refine ofContent_layOut (by decide +kernel) (by decide +kernel) ?_ (by decide +kernel)
  -- the names are in the order of the places, so that nothing is left to sort
  have hsorted : CheckpointHeader.byPlace mixed.header.tensors = mixed.header.tensors.entries :=
    List.mergeSort_of_pairwise (by decide +kernel)
  exact CheckpointHeader.endOf_eq_ok_iff.1 (hsorted ▸ by decide +kernel)

/-- A file with an element type that is not read, a tensor without elements and two elements. -/
theorem reading_of_opened_mixed :
    ofContent "mixed" mixed.content = .ok mixed ∧
      mixed.checkpoint.keys.map mixed.checkpoint.get =
        [.error (.failed (.tensorRead "a" (.unsupported .u8))),
          .ok ⟨"b", [0, 9223372036854775808, 4], []⟩,
          .ok ⟨"c", [2, 1], [0x3f800000, 0x7fc02000]⟩] ∧
      (mixed.checkpoint.keys.map Text.bytes).Pairwise (· < ·) ∧
      mixed.dataStart = 8 + LittleEndian.ofBytes (mixed.content.take 8) ∧
      (∀ key ∈ mixed.checkpoint.keys, ∃ info, mixed.header.tensors.find? key = some info ∧
        mixed.checkpoint.get key = mixed.reading key info ∧
        info.stop - info.start = info.shape.prod * info.dtype.width ∧
        mixed.dataStart + info.stop ≤ mixed.content.length) ∧
      ∀ i, mixed.dataStart ≤ i → i < mixed.content.length → ∃! key, mixed.Reads key i :=
  ⟨ofContent_mixed, by decide +kernel, reading_of_opened ofContent_mixed⟩

end CheckpointFile

end FlatWeights
