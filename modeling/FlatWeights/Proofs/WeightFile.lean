import FlatWeights.Proofs.Tensor.Split
import FlatWeights.WeightFile

/-!
The format of weight files. What is read off the front of some bytes is what was written there, bit
by bit, and reading takes exactly the bytes that writing has made: `decode_eq_ok_iff` says so in
both directions, for every header and whatever follows. Bytes that end too early are told apart from
a header that asks for more than can be read (`decode_header_append`).

The header asks for a number of bytes that need not be a size, as three lengths of four bytes each
multiply to far more than `Size.limit`. `Header.count` is that number of elements, without a limit.
-/

set_option autoImplicit false

namespace FlatWeights

/-! ## Elements -/

namespace Element

/-- An element takes four bytes. -/
theorem length_toBytes (e : Element) : e.toBytes.length = 4 :=
  LittleEndian.length_toBytes 4 e.toNat

theorem ofBytes_toBytes (e : Element) : LittleEndian.ofBytes e.toBytes = e.toNat :=
  LittleEndian.ofBytes_toBytes 4 e.toNat e.toNat_lt

/-- Four bytes are written back as they were read. -/
theorem toBytes_ofBytes {bytes : Bytes} (h : bytes.length = 4) :
    toBytes (UInt32.ofNat (LittleEndian.ofBytes bytes)) = bytes := by
  have hroom : LittleEndian.ofBytes bytes < UInt32.size := by
    have hlt := LittleEndian.ofBytes_lt bytes
    rw [h] at hlt
    exact hlt
  have hback := LittleEndian.toBytes_ofBytes bytes
  rw [h] at hback
  rw [toBytes, UInt32.toNat_ofNat', Nat.mod_eq_of_lt hroom, hback]

theorem length_of_mem_bytes {data : List Element} {bytes : Bytes}
    (h : bytes ∈ data.map toBytes) : bytes.length = 4 := by
  obtain ⟨e, -, rfl⟩ := List.mem_map.1 h
  exact e.length_toBytes

theorem length_flatten_toBytes (data : List Element) :
    (data.map toBytes).flatten.length = data.length * 4 := by
  rw [length_flatten_of_width fun _ => length_of_mem_bytes, List.length_map]

/-- The bytes of elements are one block for each element. -/
theorem blocks_toBytes (data : List Element) :
    blocks 4 data.length (data.map toBytes).flatten = data.map toBytes := by
  have hblocks := blocks_flatten fun bytes (h : bytes ∈ data.map toBytes) => length_of_mem_bytes h
  rwa [List.length_map] at hblocks

/-- Elements are the words of their bytes. -/
theorem words_toBytes (data : List Element) :
    (LittleEndian.words 4 (data.map toBytes).flatten).map UInt32.ofNat = data := by
  rw [LittleEndian.words, length_flatten_toBytes, Nat.mul_div_cancel _ (by decide), blocks_toBytes,
    List.map_map, List.map_map]
  have hsame : ∀ e ∈ data, ((UInt32.ofNat ∘ LittleEndian.ofBytes) ∘ toBytes) e = e := by
    intro e _
    rw [Function.comp_apply, Function.comp_apply, e.ofBytes_toBytes, UInt32.ofNat_toNat]
  rw [List.map_congr_left hsame, List.map_id']

section Words

variable {bytes : Bytes} {count : Nat} (h : bytes.length = count * 4)

include h

/-- Bytes without an unfinished group are the bytes of their words. -/
theorem toBytes_words :
    (((LittleEndian.words 4 bytes).map UInt32.ofNat).map toBytes).flatten = bytes := by
  rw [LittleEndian.words, h, Nat.mul_div_cancel _ (by decide), List.map_map, List.map_map]
  have hsame : ∀ block ∈ blocks 4 count bytes,
      ((toBytes ∘ UInt32.ofNat) ∘ LittleEndian.ofBytes) block = block := fun block hblock =>
    toBytes_ofBytes (length_of_mem_blocks h hblock)
  rw [List.map_congr_left hsame, List.map_id', flatten_blocks _ _ _ h]

theorem length_words : ((LittleEndian.words 4 bytes).map UInt32.ofNat).length = count := by
  rw [List.length_map, LittleEndian.words, List.length_map, length_blocks, h,
    Nat.mul_div_cancel _ (by decide)]

end Words

end Element

namespace WeightFile

/-! ## The header -/

variable {header : Header} {dims : Dims Nat} {bytes : Bytes}

namespace Header

/-- A header takes twelve bytes. -/
theorem length_toBytes (header : Header) : header.toBytes.length = headerLength := by
  simp [toBytes, Dims.toList, Element.length_toBytes, headerLength]

/-- The lengths of a header are the words of its bytes. -/
theorem toList_ofBytes (h : bytes.length = headerLength) :
    (ofBytes bytes).dims.toList = (LittleEndian.words 4 bytes).map UInt32.ofNat := by
  rw [LittleEndian.words, blocks_eq_map, h]
  rfl

/-- Twelve bytes are the header they are read as. -/
theorem toBytes_ofBytes (h : bytes.length = headerLength) : (ofBytes bytes).toBytes = bytes := by
  have hthree : bytes.length = 3 * 4 := h
  rw [toBytes, List.flatMap_def, toList_ofBytes h, Element.toBytes_words hthree]

/-- A header is read back. -/
theorem ofBytes_toBytes (header : Header) : ofBytes header.toBytes = header := by
  obtain ⟨⟨outer, middle, inner⟩⟩ := header
  have hwords := toList_ofBytes (length_toBytes ⟨⟨outer, middle, inner⟩⟩)
  rw [toBytes, List.flatMap_def, Element.words_toBytes, ← List.flatMap_def, ← toBytes] at hwords
  -- what was read is some header with the same words
  generalize ofBytes (toBytes ⟨⟨outer, middle, inner⟩⟩) = read at hwords
  obtain ⟨⟨outer', middle', inner'⟩⟩ := read
  simp only [Dims.toList, List.cons.injEq] at hwords
  obtain ⟨rfl, rfl, rfl, -⟩ := hwords
  rfl

/-- The lengths of a header are those that it was made for. -/
theorem lengths_of_ofDims? (h : ofDims? dims = some header) : header.lengths = dims := by
  rw [ofDims?] at h
  split at h
  · rename_i hroom
    obtain ⟨houter, hmiddle, hinner⟩ := hroom
    obtain rfl := Option.some.inj h
    simp only [lengths, Dims.map, UInt32.toNat_ofNat', Nat.mod_eq_of_lt houter,
      Nat.mod_eq_of_lt hmiddle, Nat.mod_eq_of_lt hinner]
  · exact absurd h (by simp)

/-- The number of elements that the lengths ask for, be it a size or not. -/
def count (header : Header) : Nat :=
  header.lengths.outer * header.lengths.middle * header.lengths.inner

/-- A header counts the bytes of the elements that its lengths ask for, if these are a size. No
partial product is too large before the last one, as two lengths always multiply to a size. -/
theorem payloadLength?_eq_some_iff {n : Nat} :
    header.payloadLength? = some n ↔ header.count * 4 = n ∧ n < Size.limit := by
  constructor
  · intro h
    obtain ⟨product, hproduct, hbytes⟩ := Option.bind_eq_some_iff.1 h
    obtain ⟨hn, hlt⟩ := Size.mul?_eq_some_iff.1 hbytes
    have hexact := Size.product?_eq_some hproduct
    simp only [Dims.toList, List.prod_cons, List.prod_nil, Nat.mul_one] at hexact
    rw [← Nat.mul_assoc] at hexact
    exact ⟨by rw [← hn, hexact, count], hn ▸ hlt⟩
  · rintro ⟨rfl, hlt⟩
    have houter : header.lengths.outer < UInt32.size := header.dims.outer.toNat_lt
    have hmiddle : header.lengths.middle < UInt32.size := header.dims.middle.toNat_lt
    -- the lengths have 32 bits each, so that two of them multiply to a size
    have hface : header.lengths.outer * header.lengths.middle < Size.limit :=
      calc header.lengths.outer * header.lengths.middle
          < UInt32.size * UInt32.size := Nat.mul_lt_mul'' houter hmiddle
        _ = Size.limit := rfl
    have hcount : header.count < Size.limit := by omega
    have hproduct : header.count? = some header.count := by
      have hfirst : Size.mul? 1 header.lengths.outer = some header.lengths.outer :=
        Size.mul?_eq_some_iff.2 (by rw [Nat.one_mul]; exact ⟨rfl, Nat.lt_trans houter (by decide)⟩)
      have hsecond := Size.mul?_eq_some_iff.2 ⟨rfl, hface⟩
      have hthird := Size.mul?_eq_some_iff.2 ⟨rfl, hcount⟩
      simp only [count?, Dims.toList, Size.product?, List.foldlM, Option.bind_eq_bind, hfirst,
        Option.bind_some, hsecond, hthird]
      rfl
    rw [payloadLength?, hproduct]
    exact Size.mul?_eq_some_iff.2 ⟨rfl, hlt⟩

/-- The payload is not counted if it is too long. -/
theorem payloadLength?_eq_none_iff :
    header.payloadLength? = none ↔ Size.limit ≤ header.count * 4 := by
  rw [← Nat.not_lt, Option.eq_none_iff_forall_ne_some]
  constructor
  · intro h hlt
    exact h _ (payloadLength?_eq_some_iff.2 ⟨rfl, hlt⟩)
  · rintro h n hn
    obtain ⟨rfl, hlt⟩ := payloadLength?_eq_some_iff.1 hn
    exact h hlt

end Header

/-! ## Whole files -/

variable {data : List Element} {content : Content} {rest : Bytes}

/-- Bytes are taken off the front. -/
theorem takeBytes_append {n : Nat} {front : Bytes} (rest : Bytes) (h : front.length = n) :
    takeBytes n (front ++ rest) = .ok (front, rest) := by
  rw [takeBytes, if_pos (by simp [← h]), ← h, List.take_left, List.drop_left]

/-- A header is taken off the front of the bytes. -/
theorem readHeader_append (header : Header) (rest : Bytes) :
    readHeader (header.toBytes ++ rest) = .ok (header, rest) := by
  rw [readHeader, takeBytes_append _ header.length_toBytes]
  change Except.ok _ = _
  rw [header.ofBytes_toBytes]

/-- Bytes that are long enough begin with a header. -/
theorem exists_header (h : headerLength ≤ bytes.length) :
    ∃ (header : Header) (rest : Bytes), bytes = header.toBytes ++ rest := by
  have hfront : (bytes.take headerLength).length = headerLength := by
    rw [List.length_take]
    omega
  refine ⟨.ofBytes (bytes.take headerLength), bytes.drop headerLength, ?_⟩
  rw [Header.toBytes_ofBytes hfront, List.take_append_drop]

/-- Fewer bytes than a header has are cut short. -/
theorem decode_of_short (h : bytes.length < headerLength) : decode bytes = .error .cutShort := by
  have hlt : headerLength < Size.bufferLimit := by decide
  rw [decode, readHeader, takeBytes, if_neg (by omega), if_pos hlt]
  rfl

/-- Behind a header the bytes that it asks for are read, if they are there. If not, it depends on
their number whether that is noticed. -/
theorem decode_header_append (header : Header) (rest : Bytes) :
    decode (header.toBytes ++ rest) =
      if Size.limit ≤ header.count * 4 then .error .overflow
      else if header.count * 4 ≤ rest.length then
        .ok (⟨header, (LittleEndian.words 4 (rest.take (header.count * 4))).map UInt32.ofNat⟩,
          rest.drop (header.count * 4))
      else if header.count * 4 < Size.bufferLimit then .error .cutShort
      else .error .overflow := by
  rw [decode, readHeader_append]
  simp only [bind, Except.bind]
  split
  · rename_i hnone
    rw [if_pos (Header.payloadLength?_eq_none_iff.1 hnone)]
  · rename_i n hsome
    obtain ⟨rfl, hlt⟩ := Header.payloadLength?_eq_some_iff.1 hsome
    rw [if_neg (Nat.not_le.2 hlt), takeBytes]
    by_cases hroom : header.count * 4 ≤ rest.length
    · rw [if_pos hroom, if_pos hroom]
      rfl
    · rw [if_neg hroom, if_neg hroom]
      by_cases hbuffer : header.count * 4 < Size.bufferLimit
      · rw [if_pos hbuffer, if_pos hbuffer]
      · rw [if_neg hbuffer, if_neg hbuffer]

/-- A file has the bytes of its header and four for each element. -/
theorem length_encode (header : Header) (data : List Element) :
    (encode header data).length = headerLength + data.length * 4 := by
  rw [encode, pieces, List.flatten_cons, List.length_append, header.length_toBytes,
    Element.length_flatten_toBytes]

/-- What was written is read back, and what follows it is left over. -/
theorem decode_encode_append (rest : Bytes) (hdata : data.length = header.count)
    (hsize : header.count * 4 < Size.limit) :
    decode (encode header data ++ rest) = .ok (⟨header, data⟩, rest) := by
  have hlength : (data.map Element.toBytes).flatten.length = header.count * 4 := by
    rw [Element.length_flatten_toBytes, hdata]
  have hencode : encode header data = header.toBytes ++ (data.map Element.toBytes).flatten := rfl
  have hroom : header.count * 4 ≤ ((data.map Element.toBytes).flatten ++ rest).length := by
    rw [List.length_append, hlength]
    omega
  rw [hencode, List.append_assoc, decode_header_append, if_neg (Nat.not_le.2 hsize),
    if_pos hroom, ← hlength, List.take_left, List.drop_left, Element.words_toBytes]

/-- What was written is read back, and nothing is left over. -/
theorem decode_encode (data : List Element) {n : Nat} (hpayload : header.payloadLength? = some n)
    (hdata : data.length =
      header.lengths.outer * header.lengths.middle * header.lengths.inner) :
    decode (encode header data) = .ok (⟨header, data⟩, []) := by
  obtain ⟨rfl, hsize⟩ := Header.payloadLength?_eq_some_iff.1 hpayload
  have happend := decode_encode_append [] hdata hsize
  rwa [List.append_nil] at happend

/-- **Reading is the inverse of writing.** A content is read exactly off the bytes that are written
for it, if the header counts its elements and their bytes are a size; what follows is left over. -/
theorem decode_eq_ok_iff : decode bytes = .ok (content, rest) ↔
    bytes = encode content.header content.data ++ rest ∧
      content.data.length = content.header.count ∧ content.header.count * 4 < Size.limit := by
  constructor
  · intro h
    by_cases hlong : headerLength ≤ bytes.length
    · obtain ⟨header, after, rfl⟩ := exists_header hlong
      rw [decode_header_append] at h
      split at h
      · exact absurd h (by simp)
      · rename_i hsize
        split at h
        · rename_i hroom
          obtain ⟨rfl, rfl⟩ := Prod.mk.inj (Except.ok.inj h)
          -- the bytes that the header asks for are all bytes of elements
          have hlength : (after.take (header.count * 4)).length = header.count * 4 := by
            rw [List.length_take]
            omega
          refine ⟨?_, Element.length_words hlength, Nat.not_le.1 hsize⟩
          rw [encode, pieces, List.flatten_cons, Element.toBytes_words hlength, List.append_assoc,
            List.take_append_drop]
        · split at h <;> exact absurd h (by simp)
    · rw [decode_of_short (Nat.not_le.1 hlong)] at h
      exact absurd h (by simp)
  · rintro ⟨rfl, hdata, hsize⟩
    exact decode_encode_append rest hdata hsize

/-- A proper beginning of a file is never read. Whether it is found to be cut short depends on
whether a buffer can hold what the header asks for, if the header is there. -/
theorem decode_prefix {front : Bytes} (hdata : data.length = header.count)
    (hsize : header.count * 4 < Size.limit) (hfront : front <+: encode header data)
    (hproper : front ≠ encode header data) :
    decode front = .error (if front.length < headerLength ∨ header.count * 4 < Size.bufferLimit
      then .cutShort else .overflow) := by
  by_cases hlong : headerLength ≤ front.length
  · -- a prefix that has a header has the one that was written
    obtain ⟨rest, hrest⟩ : header.toBytes <+: front := by
      refine List.prefix_of_prefix_length_le (List.prefix_append _ _) hfront ?_
      rwa [header.length_toBytes]
    have hshort : rest.length < header.count * 4 := by
      have hlt : front.length < (encode header data).length :=
        Nat.lt_of_le_of_ne hfront.length_le fun heq => hproper (hfront.eq_of_length heq)
      rw [← hrest, length_encode, List.length_append, header.length_toBytes, hdata] at hlt
      omega
    have hread : decode front = if header.count * 4 < Size.bufferLimit then .error .cutShort
        else .error .overflow := by
      rw [← hrest, decode_header_append, if_neg (by omega), if_neg (by omega)]
    rw [hread]
    by_cases hbuffer : header.count * 4 < Size.bufferLimit
    · rw [if_pos hbuffer, if_pos (.inr hbuffer)]
    · rw [if_neg hbuffer, if_neg (by omega)]
  · rw [if_pos (.inl (Nat.not_le.1 hlong))]
    exact decode_of_short (Nat.not_le.1 hlong)

/-- **The format is exact.** Elements that a header counts, their bytes being a size, are read back
from what is written for them, and exactly these bytes are taken. If some of the bytes are missing
nothing is read; that they are missing is what is noticed, unless the header asks for more than a
buffer can hold. And whatever can be read consists of the bytes that writing it gives. -/
theorem format_exact (header : Header) (data : List Element) (bytes : Bytes) :
    (data.length = header.count → header.count * 4 < Size.limit →
      (encode header data).length = headerLength + 4 * header.count ∧
      (∀ rest, decode (encode header data ++ rest) = .ok (⟨header, data⟩, rest)) ∧
      ∀ front, front <+: encode header data → front ≠ encode header data →
        decode front = .error (if front.length < headerLength ∨ header.count * 4 < Size.bufferLimit
          then .cutShort else .overflow)) ∧
    ∀ content rest, decode bytes = .ok (content, rest) →
      content.data.length = content.header.count ∧
        encode content.header content.data ++ rest = bytes := by
  refine ⟨fun hdata hsize => ⟨?_, ?_, ?_⟩, ?_⟩
  · rw [length_encode, hdata, Nat.mul_comm]
  · exact fun rest => decode_encode_append rest hdata hsize
  · exact fun front => decode_prefix hdata hsize
  · intro content rest h
    obtain ⟨hbytes, hdata, -⟩ := decode_eq_ok_iff.1 h
    exact ⟨hdata, hbytes.symm⟩

/-- Two elements and one byte more; then the same without the last element; then a header alone that
asks for half as many bytes as there are sizes. -/
theorem format_exact_pair :
    let header : Header := ⟨⟨1, 2, 1⟩⟩
    let data : List Element := [1065353216, 2143289345]
    let vast : Header := ⟨⟨2147483648, 1073741824, 1⟩⟩
    data.length = header.count ∧ header.count * 4 < Size.limit ∧ vast.count * 4 < Size.limit ∧
      (encode header data).length = 20 ∧
      decode (encode header data ++ [7]) = .ok (⟨header, data⟩, [7]) ∧
      decode (header.toBytes ++ [0, 0, 128, 63]) = .error .cutShort ∧
      vast.toBytes <+: encode vast (List.replicate vast.count 0) ∧
      decode vast.toBytes = .error .overflow := by
  intro header data vast
  have hdata : data.length = header.count := by decide
  have hsize : header.count * 4 < Size.limit := by decide
  obtain ⟨hlength, hback, hshort⟩ := (format_exact header data []).1 hdata hsize
  have hfront :=
    hshort (header.toBytes ++ [0, 0, 128, 63]) ⟨[1, 0, 192, 127], by decide⟩ (by decide)
  rw [if_pos (.inr (by decide))] at hfront
  have hvast : vast.count * 4 < Size.limit := by decide
  obtain ⟨hroom, -, hlone⟩ := (format_exact vast (List.replicate vast.count 0) []).1
    List.length_replicate hvast
  have hbegin : vast.toBytes <+: encode vast (List.replicate vast.count 0) :=
    List.prefix_append _ _
  have hproper : vast.toBytes ≠ encode vast (List.replicate vast.count 0) := fun heq => by
    have hpositive : 0 < vast.count := by decide
    rw [← heq, vast.length_toBytes] at hroom
    omega
  have halone := hlone _ hbegin hproper
  rw [if_neg (by decide)] at halone
  exact ⟨hdata, hsize, hvast, hlength, hback [7], hfront, hbegin, halone⟩

/-! ## Bytes that are no weight file -/

/-- The header is not complete, or bytes that it asks for are missing although a buffer could hold
them. -/
def Incomplete (bytes : Bytes) : Prop :=
  bytes.length < headerLength ∨ ∃ (header : Header) (rest : Bytes),
    bytes = header.toBytes ++ rest ∧ rest.length < header.count * 4 ∧
      header.count * 4 < Size.bufferLimit

/-- The header asks for more bytes than a size can count, or than a buffer can hold while not all of
them are there. -/
def Oversized (bytes : Bytes) : Prop :=
  ∃ (header : Header) (rest : Bytes), bytes = header.toBytes ++ rest ∧
    (Size.limit ≤ header.count * 4 ∨
      Size.bufferLimit ≤ header.count * 4 ∧ rest.length < header.count * 4)

/-- A header and what follows it are where the bytes say. -/
theorem Header.eq_of_append_eq {header' : Header} {rest' : Bytes}
    (h : header.toBytes ++ rest = header'.toBytes ++ rest') : header = header' ∧ rest = rest' := by
  have hread := congrArg readHeader h
  rw [readHeader_append, readHeader_append] at hread
  exact Prod.mk.inj (Except.ok.inj hread)

/-- A file that is cut short is an incomplete one. -/
theorem decode_eq_cutShort_iff : decode bytes = .error .cutShort ↔ Incomplete bytes := by
  have hlimit : Size.bufferLimit ≤ Size.limit := by decide
  by_cases hlong : headerLength ≤ bytes.length
  · obtain ⟨header, rest, rfl⟩ := exists_header hlong
    rw [decode_header_append]
    constructor
    · intro h
      split at h
      · exact absurd h (by simp)
      · split at h
        · exact absurd h (by simp)
        · rename_i hmissing
          split at h
          · rename_i hbuffer
            exact .inr ⟨header, rest, rfl, Nat.not_le.1 hmissing, hbuffer⟩
          · exact absurd h (by simp)
    · -- bytes begin with one header only
      rintro (hshort | ⟨header', rest', heq, hmissing, hbuffer⟩)
      · exact absurd hlong (Nat.not_le.2 hshort)
      · obtain ⟨rfl, rfl⟩ := Header.eq_of_append_eq heq
        rw [if_neg (by omega), if_neg (by omega), if_pos hbuffer]
  · have hshort : bytes.length < headerLength := Nat.not_le.1 hlong
    exact ⟨fun _ => .inl hshort, fun _ => decode_of_short hshort⟩

/-- A header that counts more than can be counted ends the program. -/
theorem decode_eq_overflow_iff : decode bytes = .error .overflow ↔ Oversized bytes := by
  have hlimit : Size.bufferLimit ≤ Size.limit := by decide
  constructor
  · intro h
    by_cases hlong : headerLength ≤ bytes.length
    · obtain ⟨header, rest, rfl⟩ := exists_header hlong
      refine ⟨header, rest, rfl, ?_⟩
      rw [decode_header_append] at h
      split at h
      · rename_i hsize
        exact .inl hsize
      · split at h
        · exact absurd h (by simp)
        · rename_i hmissing
          split at h
          · exact absurd h (by simp)
          · rename_i hbuffer
            exact .inr ⟨Nat.not_lt.1 hbuffer, Nat.not_le.1 hmissing⟩
    · rw [decode_of_short (Nat.not_le.1 hlong)] at h
      exact absurd h (by simp)
  · rintro ⟨header, rest, rfl, hsize | ⟨hbuffer, hmissing⟩⟩
    · rw [decode_header_append, if_pos hsize]
    · rw [decode_header_append]
      by_cases hsize : Size.limit ≤ header.count * 4
      · rw [if_pos hsize]
      · rw [if_neg hsize, if_neg (by omega), if_neg (by omega)]

end WeightFile

end FlatWeights
