import FlatWeights.Proofs.Checkpoint.Reading
import FlatWeights.Proofs.Conversion.Stops
import FlatWeights.Proofs.Conversion.Verified
import FlatWeights.Proofs.Tensor.Indexed

/-!
A run never stops for a number that is no size. On its way a tensor passes three places where
numbers are formed. It is cut, and the cuts stay in range (`Naming.resolveAt_eq`). The header of an
output multiplies the lengths of that output, which is the number of its elements. And the run adds
up the bytes of all files. That sum is the only number that the tensors of a file do not bound, so
it has to be bounded by hypothesis; and the buffer that files are written through is as large as the
configuration says, which may be too large for any (`huge_buffer_overflows`).

How much memory there is does not come in anywhere else. What is shown of the buffers of tensors is
that none has to be larger than that of the tensor it is cut from.
-/

set_option autoImplicit false

namespace FlatWeights

open Emitter WeightFile

/-! ## The header of an output -/

namespace WeightFile.Header

variable {t : OutputTensor} {header : Header}

/-- A header that has room for the lengths of a tensor counts its elements. -/
theorem count?_of_fits (hfits : CanonicalTensor.Fits ⟨t.dims, t.data⟩)
    (hheader : ofDims? t.dims = some header) : header.count? = some t.data.length := by
  rw [count?, lengths_of_ofDims? hheader]
  exact hfits

/-- The payload of a tensor in range is counted. -/
theorem payloadLength?_of_fits (hfits : CanonicalTensor.Fits ⟨t.dims, t.data⟩)
    (hheader : ofDims? t.dims = some header) (hlimit : t.data.length * 4 < Size.limit) :
    header.payloadLength? = some (t.data.length * 4) := by
  rw [payloadLength?, count?_of_fits hfits hheader]
  exact Size.mul?_eq_some_iff.2 ⟨rfl, hlimit⟩

end WeightFile.Header

/-- An emitter counts the bytes of a tensor as long as their sum is a size. -/
theorem Emitter.not_refuses_overflow {emitter : Emitter} {t : OutputTensor}
    (hfits : CanonicalTensor.Fits ⟨t.dims, t.data⟩)
    (hlimit : emitter.stats.bytes + (headerLength + t.data.length * 4) < Size.limit) :
    ¬ emitter.Refuses t .overflow := by
  intro hrefuses
  cases hrefuses with
  | uncounted hheader hnone =>
    have hpayload := Header.payloadLength?_of_fits hfits hheader (by omega)
    have htotal := total?_eq_some_iff.2 ⟨_, hpayload, rfl, hlimit⟩
    rw [hnone] at htotal
    exact absurd htotal (by simp)

theorem Stop.not_ofWrite_overflow {buffer : Nat} (hbuffer : buffer < Size.bufferLimit) :
    ¬ Stop.OfWrite buffer .overflow := by
  rintro (_ | hhuge)
  exact absurd hbuffer (Nat.not_lt.2 hhuge)

/-! ## One tensor -/

/-- What an emitter does with an output at its header: the lengths have no room in it and the output
is turned away as a failed write, or the header counts the elements and their bytes. -/
def OutputTensor.Counted (t : OutputTensor) : Prop :=
  match Header.ofDims? t.dims with
  | none => ∀ (d : Disk) (storage : Storage (StateM Disk)) (emitter : Emitter), ∃ fault,
      d.emitted emitter (emit storage t) =
        ((.error (.failed (.write (finalPath emitter.output t.name) fault)), emitter), d)
  | some header =>
    header.count? = some t.data.length ∧ header.payloadLength? = some (t.data.length * 4)

theorem OutputTensor.counted_of_fits {t : OutputTensor}
    (hfits : CanonicalTensor.Fits ⟨t.dims, t.data⟩) (hlimit : t.data.length * 4 < Size.limit) :
    t.Counted := by
  unfold Counted
  split
  · rename_i hnone
    intro d storage emitter
    rw [Disk.emitted_emit]
    split
    · rw [hnone]
      exact ⟨_, rfl⟩
    · exact ⟨_, rfl⟩
  · rename_i header hheader
    exact ⟨Header.count?_of_fits hfits hheader,
      Header.payloadLength?_of_fits hfits hheader hlimit⟩

/-- Resolving a tensor and emitting its outputs stay in range. -/
structure Naming.InRange (naming : Naming) (raw : RawTensor) : Prop where
  /-- The loops over indices do what the cuts do, and that is not to stop for a number. -/
  resolves : naming.resolveAt raw = naming.resolve raw ∧ naming.resolve raw ≠ .error .overflow
  /-- No buffer is larger than the one that it is filled from. -/
  smaller : ∀ outputs, naming.resolve raw = .ok outputs → ∀ t ∈ outputs,
    t.data.length = t.dims.outer * t.dims.middle * t.dims.inner ∧ t.data.length ≤ raw.data.length
  /-- The header of each output counts its bytes, or is too small for its lengths. A buffer of words
  has fewer than `2 ^ 61` of them, as it has at most `2 ^ 63 - 1` bytes. -/
  counted : raw.data.length < 2 ^ 61 → ∀ outputs, naming.resolve raw = .ok outputs →
    ∀ t ∈ outputs, t.Counted
  /-- Each output is emitted, as long as the bytes of the run are a size and there is a buffer to
  write it through. -/
  emits : ∀ outputs, naming.resolve raw = .ok outputs → ∀ t ∈ outputs,
    ∀ (base : Path) (buffer : Nat) (d : Disk) (emitter : Emitter), buffer < Size.bufferLimit →
      emitter.stats.bytes + (headerLength + t.data.length * 4) < Size.limit →
      (d.emitted emitter (emit (Storage.below base buffer) t)).1.1 ≠ .error .overflow

/-- **Every tensor that was made stays in range**, whatever the naming. -/
theorem Naming.inRange_of_make {naming : Naming} {name : String} {shape : Shape}
    {data : List Element} {raw : RawTensor} (h : RawTensor.make name shape data = .ok raw) :
    naming.InRange raw where
  resolves := resolveAt_eq h
  smaller := by
    intro outputs houtputs t ht
    obtain ⟨hfits, hle⟩ := fits_of_resolve h houtputs t ht
    exact ⟨hfits.full, hle⟩
  counted := by
    intro hsmall outputs houtputs t ht
    obtain ⟨hfits, hle⟩ := fits_of_resolve h houtputs t ht
    have hlimit : (2 : Nat) ^ 61 * 4 < Size.limit := by decide
    exact OutputTensor.counted_of_fits hfits (by omega)
  emits := by
    intro outputs houtputs t ht base buffer d emitter hbuffer hlimit hover
    obtain ⟨hfits, -⟩ := fits_of_resolve h houtputs t ht
    -- a tensor that is not staged was refused or could not be written, and neither is an overflow
    rcases Disk.stop_of_emit (Prod.ext (Prod.ext hover rfl) rfl) with hrefuses | hwrite
    · exact Emitter.not_refuses_overflow hfits hlimit hrefuses
    · exact Stop.not_ofWrite_overflow hbuffer hwrite

/-! ## All tensors of a file -/

namespace CheckpointFile

variable {path : Path} {content : Bytes} {file : CheckpointFile} {key : String} {raw : RawTensor}

/-- The tensors of an opened file are as they are made. -/
theorem make_of_get (h : ofContent path content = .ok file) (hraw : file.get key = .ok raw) :
    RawTensor.make key raw.shape raw.data = .ok raw := by
  cases hinfo : file.header.tensors.find? key with
  | none =>
    rw [get, hinfo] at hraw
    exact absurd hraw (by simp)
  | some info =>
  obtain ⟨hsized, -⟩ := place_of_opened h hinfo
  rw [get_of_opened h hinfo, reading] at hraw
  split at hraw
  · obtain rfl := Except.ok.inj hraw
    refine RawTensor.make_eq_ok_iff.2 ⟨?_, rfl⟩
    rw [hsized.product, List.length_map, List.length_range]
  · exact absurd hraw (by simp)

/-- Reading a tensor of an opened file never stops for a number. -/
theorem get_ne_overflow (h : ofContent path content = .ok file) :
    file.get key ≠ .error .overflow := by
  cases hinfo : file.header.tensors.find? key with
  | none =>
    rw [get, hinfo]
    simp
  | some info =>
    rw [get_of_opened h hinfo, reading]
    split
    · simp
    · simp

end CheckpointFile

namespace Checkpoint

variable {c : Checkpoint} {naming : Naming} {keys : List String}

/-- The outputs of tensors that were made have products that are sizes. -/
theorem fits_of_resolvedOf (hexact : c.Exact) :
    ∀ t ∈ c.resolvedOf naming keys, CanonicalTensor.Fits ⟨t.dims, t.data⟩ := by
  induction keys with
  | nil => simp [resolvedOf]
  | cons key keys ih =>
    rw [resolvedOf]
    cases hkey : c.get key >>= naming.resolve with
    | error stop => simp
    | ok outputs =>
    intro t ht
    rcases List.mem_append.1 ht with ht | ht
    · cases hraw : c.get key with
      | error stop =>
        rw [hraw] at hkey
        exact absurd hkey (by simp [bind, Except.bind])
      | ok raw =>
        rw [hraw] at hkey
        exact (Naming.fits_of_resolve (hexact key raw hraw) hkey t ht).1
    · exact ih t ht

end Checkpoint

namespace Disk

variable {d : Disk} {base : Path} {buffer : Nat} {output : OutputSettings} {naming : Naming}
  {checkpoint : Checkpoint}

/-- **A run stops for no number**, if reading stops for none, the bytes of all files together are
fewer than there are sizes, and there is a buffer to write them through. -/
theorem perform_ne_overflow (hbuffer : buffer < Size.bufferLimit) (hexact : checkpoint.Exact)
    (hget : ∀ key, checkpoint.get key ≠ .error .overflow)
    (hbytes : ((checkpoint.resolved naming).map fun t => headerLength + t.data.length * 4).sum <
      Size.limit) :
    (d.run (Conversion.perform (Storage.below base buffer) output naming checkpoint)).1.result ≠
      .error .overflow := by
  intro hover
  rcases stop_of_perform hover with ⟨key, -, hstop⟩ |
    ⟨done, t, rest, next, hsplit, haccepted, hno⟩ | hwrite
  · -- reading gives a tensor that was made, or stops for another reason
    cases hraw : checkpoint.get key with
    | error stop =>
      rw [hraw] at hstop
      obtain rfl := Except.error.inj hstop
      exact hget key hraw
    | ok raw =>
      rw [hraw] at hstop
      exact (Naming.resolveAt_eq (hexact key raw hraw)).2 hstop
  · -- the emitter has counted the outputs before this one, and their bytes are part of the sum
    have hfits : ∀ t ∈ checkpoint.resolved naming, CanonicalTensor.Fits ⟨t.dims, t.data⟩ :=
      Checkpoint.fits_of_resolvedOf hexact
    rw [hsplit] at hbytes hfits
    rw [List.map_append, List.sum_append, List.map_cons, List.sum_cons] at hbytes
    have hcounted := stats_of_acceptAll? haccepted
      (fun t' ht' => (hfits t' (by simp [ht'])).full) (show 0 < Size.limit by decide)
    have hsum : next.stats.bytes =
        (done.map fun t => headerLength + t.data.length * 4).sum := by
      rw [hcounted.2.1]
      exact Nat.zero_add _
    exact not_refuses_overflow (hfits t (by simp)) (by omega) hno
  · exact Stop.not_ofWrite_overflow hbuffer hwrite

/-- **No number on the way is too large.** Whatever the naming, a tensor that was made is cut and
emitted in range; and the conversion of a file that was opened never stops for a number, if the
bytes of all its outputs together are fewer than there are sizes and the configured buffer can be
made. -/
theorem conversion_in_range :
    (∀ (naming : Naming) (name : String) (shape : Shape) (data : List Element) (raw : RawTensor),
      RawTensor.make name shape data = .ok raw → naming.InRange raw) ∧
    ∀ (config : Config) (converter : Converter (StateM Disk)) (d₀ e₀ d : Disk) (path : Path)
      (content : Bytes) (file : CheckpointFile),
      d₀.outcome (Converter.ofConfig config) = (.ok converter, e₀) →
      config.storage.bufferSize < Size.bufferLimit →
      CheckpointFile.ofContent path content = .ok file →
      ((file.checkpoint.resolved config.naming).map fun t =>
        headerLength + t.data.length * 4).sum < Size.limit →
      (d.run (converter.convert file.checkpoint)).1.result ≠ .error .overflow := by
  constructor
  · intro naming name shape data raw h
    exact Naming.inRange_of_make h
  · intro config converter d₀ e₀ d path content file hmake hbuffer hopen hbytes
    obtain ⟨-, rfl⟩ := converter_of_config hmake
    -- what a key of the file gives was made as a tensor, under that key
    have hexact : file.checkpoint.Exact := by
      intro key raw hraw
      have hmade := CheckpointFile.make_of_get hopen hraw
      obtain ⟨-, hname⟩ := RawTensor.make_eq_ok_iff.1 hmade
      rw [hname] at hmade ⊢
      exact hmade
    have hget (key : String) : file.checkpoint.get key ≠ .error .overflow :=
      CheckpointFile.get_ne_overflow hopen
    simp only [convert_converterOf]
    exact perform_ne_overflow hbuffer hexact hget hbytes

/-! ### Lengths that have no product -/

/-- A fused attention tensor without rows, whose last two lengths have no product that is a size. -/
def hollow : RawTensor := ⟨"h.0.attn.c_attn.weight", [0, 2 ^ 63, 6], []⟩

/-- A file with an embedding of half precision. -/
def halved : CheckpointFile where
  content := CheckpointFile.layOut
    "\x7b\"wte.weight\":[\"F16\",[2,1],[0,4]]\x7d" [0, 60, 1, 126]
  header := ⟨(Text.bytes "\x7b\"wte.weight\":[\"F16\",[2,1],[0,4]]\x7d").length,
    SortedMap.ofList [("wte.weight", ⟨.f16, [2, 1], 0, 4⟩)]⟩

theorem ofContent_halved : CheckpointFile.ofContent "model" halved.content = .ok halved := by
  refine CheckpointFile.ofContent_layOut (by decide +kernel) (by decide +kernel) ?_
    (by decide +kernel)
  have hsorted : CheckpointHeader.byPlace halved.header.tensors = halved.header.tensors.entries :=
    List.mergeSort_of_pairwise (by decide +kernel)
  exact CheckpointHeader.endOf_eq_ok_iff.1 (hsorted ▸ by decide +kernel)

/-- A tensor without elements is cut in three, though two of its dimensions are beyond what memory
holds. -/
theorem conversion_in_range_hollow :
    RawTensor.make "h.0.attn.c_attn.weight" [0, 2 ^ 63, 6] [] = .ok hollow ∧
      Naming.resolveAt {} hollow =
        .ok (["query", "key", "value"].map fun role =>
          ⟨"block0.attention." ++ role ++ ".weights", ⟨0, 2 ^ 63, 2⟩, []⟩) ∧
      Naming.InRange {} hollow ∧
      blank.outcome (Converter.ofConfig direct.config) = (.ok direct, blank) ∧
      direct.config.storage.bufferSize < Size.bufferLimit ∧
      CheckpointFile.ofContent "model" halved.content = .ok halved ∧
      ((halved.checkpoint.resolved direct.config.naming).map fun t =>
        headerLength + t.data.length * 4).sum = 32 ∧
      (blank.run (direct.convert halved.checkpoint)).1.result ≠ .error .overflow := by
  have hmade : RawTensor.make "h.0.attn.c_attn.weight" [0, 2 ^ 63, 6] [] = .ok hollow := by
    decide +kernel
  have hmake : blank.outcome (Converter.ofConfig direct.config) = (.ok direct, blank) :=
    outcome_ofConfig (by decide +kernel) (by decide +kernel)
  have hbytes : ((halved.checkpoint.resolved direct.config.naming).map fun t =>
      headerLength + t.data.length * 4).sum = 32 := by
    decide +kernel
  have hbuffer : direct.config.storage.bufferSize < Size.bufferLimit := by decide
  refine ⟨hmade, by decide +kernel, conversion_in_range.1 {} _ _ _ _ hmade, hmake, hbuffer,
    ofContent_halved, hbytes, ?_⟩
  exact conversion_in_range.2 direct.config direct blank blank blank "model" halved.content halved
    hmake hbuffer ofContent_halved (by rw [hbytes]; decide)

/-! ### A buffer that cannot be made -/

/-- The converter with the largest buffer that a configuration can ask for. -/
def engorged : Converter (StateM Disk) :=
  converterOf { storage := { bufferSize := Size.limit - 1 }, output := { dir := "out" } }

/-- A valid configuration may ask for a buffer that cannot be made. Then the conversion of an opened
file stops at the first file that is to be written, however few its bytes are. -/
theorem huge_buffer_overflows :
    blank.outcome (Converter.ofConfig engorged.config) = (.ok engorged, blank) ∧
      CheckpointFile.ofContent "model" halved.content = .ok halved ∧
      ((halved.checkpoint.resolved engorged.config.naming).map fun t =>
        headerLength + t.data.length * 4).sum = 32 ∧
      (blank.run (engorged.convert halved.checkpoint)).1.result = .error .overflow :=
  ⟨outcome_ofConfig (by decide +kernel) (by decide +kernel), ofContent_halved, by decide +kernel,
    by decide +kernel⟩

end Disk

end FlatWeights
