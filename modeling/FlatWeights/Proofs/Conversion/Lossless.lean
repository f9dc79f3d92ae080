import FlatWeights.Proofs.Checkpoint.File
import FlatWeights.Proofs.Conversion.Effect
import FlatWeights.Proofs.Resolver
import FlatWeights.Proofs.Verify

/-!
Nothing is lost from a checkpoint file to the weight files. Where names may not collide, every
output of a run is the last one of its name, so its file is in the output directory and is read back
as it was written; and a tensor of single precision can be put together again, word by word, from
what its files are read back as.
-/

set_option autoImplicit false

namespace FlatWeights

open Emitter

namespace Disk

variable {d d₀ d₁ e : Disk} {base : Path} {buffer : Nat} {output : OutputSettings} {l : Location}
  {outs : List OutputTensor} {naming : Naming} {checkpoint : Checkpoint} {t : OutputTensor}

/-- A file that was written for a tensor is read back as that tensor. -/
theorem filed_of_encode {header : WeightFile.Header} {n : Nat}
    (hdims : WeightFile.Header.ofDims? t.dims = some header)
    (hpayload : header.payloadLength? = some n) (hfull : CanonicalTensor.Full ⟨t.dims, t.data⟩)
    (h : d.tree.find? (fileName t.name :: l) = some (.file (WeightFile.encode header t.data))) :
    d.filed l t.name = some ⟨t.dims, t.data⟩ := by
  have hlengths := WeightFile.Header.lengths_of_ofDims? hdims
  have hdecode := WeightFile.decode_encode t.data hpayload (by rwa [hlengths])
  rw [filed, h]
  simp only [hdecode, hlengths]

/-- Where no name is given twice, every output is in its file. -/
theorem Effect.file_of_nodup {p : Path} (h : Effect p l outs d e)
    (hnodup : (outs.map (·.name)).Nodup) (ht : t ∈ outs) :
    ∃ header, WeightFile.Header.ofDims? t.dims = some header ∧
      e.tree.find? (fileName t.name :: l) = some (.file (WeightFile.encode header t.data)) := by
  obtain ⟨last, header, hlast, hdims, hfile⟩ := h.files t ht
  obtain rfl : t = last := Option.some.inj ((lastOutput?_of_nodup hnodup ht).symm.trans hlast)
  exact ⟨header, hdims, hfile⟩

/-- The file of an output whose name is given once has a header and the elements of the output. -/
theorem Effect.fileLength {p : Path} (h : Effect p l outs d e)
    (hnodup : (outs.map (·.name)).Nodup) (ht : t ∈ outs) :
    e.fileLength (fileName t.name :: l) = WeightFile.headerLength + t.data.length * 4 := by
  obtain ⟨header, -, hfile⟩ := h.file_of_nodup hnodup ht
  rw [Disk.fileLength, hfile]
  exact WeightFile.length_encode header t.data

/-- After a run in which names may not collide, every output is read back from its file. -/
theorem Effect.filed {p : Path} {next : Emitter} (h : Effect p l outs d e)
    (hpolicy : output.onCollision = .error)
    (haccepted : Emitter.acceptAll? { output } outs = some next) (ht : t ∈ outs)
    (hfull : CanonicalTensor.Full ⟨t.dims, t.data⟩) : e.filed l t.name = some ⟨t.dims, t.data⟩ := by
  obtain ⟨hnodup, -⟩ := Emitter.nodup_of_acceptAll? haccepted hpolicy
  obtain ⟨header, hdims, hfile⟩ := h.file_of_nodup hnodup ht
  obtain ⟨header', n, hdims', hpayload⟩ := Emitter.exists_payload_of_acceptAll? haccepted ht
  obtain rfl : header = header' := Option.some.inj (hdims.symm.trans hdims')
  exact filed_of_encode hdims hpayload hfull hfile

/-- Where a checkpoint file was converted and names may not collide, every tensor of single
precision that is not left out can be put together again from its weight files, with the shape and
the words that it has in the checkpoint. -/
theorem convertFile_lossless {config : Config} {converter : Converter (StateM Disk)}
    (hmake : d₀.outcome (Converter.ofConfig config) = (.ok converter, d₁))
    (hpolicy : config.output.onCollision = .error) {path : Path} {report : ConversionReport}
    (h : (d.outcome (converter.convertFile path)).1 = .ok report) :
    ∃ file l, d.outcome (converter.openCheckpoint path) = (.ok file, d) ∧
      d.lead? (outputPath "." config.output) = some l ∧
      ∀ key info, file.header.tensors.find? key = some info → info.dtype = .f32 →
        config.naming.layout key ≠ .dropped → ∃ dims, info.shape.canonical = .ok dims ∧
          (file.range info).length = dims.outer * dims.middle * dims.inner * 4 ∧
          (config.naming.layout key).Reassembles
            ((d.outcome (converter.convertFile path)).2.filed l) ⟨dims, file.words info⟩ := by
  obtain ⟨-, rfl⟩ := converter_of_config hmake
  rw [outcome_convertFile] at h ⊢
  have hsame := outcome_openCheckpoint (converterOf config) path d
  cases hopen : d.outcome (Converter.openCheckpoint (converterOf config) path) with
  | mk result d' =>
  rw [hopen] at h hsame
  obtain rfl : d' = d := hsame
  cases result with
  | error stop => exact absurd h (by simp)
  | ok file =>
  simp only [convert_converterOf] at h ⊢
  obtain ⟨l, outs, next, hlead, houts, haccepted, heffect⟩ :=
    perform_effect (outputPath_ne_empty config.output) h
  refine ⟨file, l, rfl, hlead, fun key info hinfo hdtype hkept => ?_⟩
  -- what was read of this key went through the resolver as a whole
  obtain ⟨outputs, hkey, hmem⟩ :=
    Checkpoint.exists_outputs_of_mem houts (SortedMap.mem_keys_of_find? hinfo)
  cases hraw : file.get key with
  | error stop =>
    have hget : file.checkpoint.get key = .error stop := hraw
    rw [hget] at hkey
    exact absurd hkey (by simp [bind, Except.bind])
  | ok raw =>
  have hget : file.checkpoint.get key = .ok raw := hraw
  rw [hget] at hkey
  obtain ⟨rfl, hcount, hrange⟩ := CheckpointFile.get_of_single hinfo hdtype hraw
  obtain ⟨dims, hdims, hreassembles⟩ := Naming.reassembles_of_resolve hkey hcount hkept
    fun t ht hfull => heffect.filed hpolicy haccepted (hmem t ht) hfull
  refine ⟨dims, hdims, ?_, hreassembles⟩
  rw [hrange, Shape.prod_eq_of_canonical hdims]

/-! ### An embedding that comes back -/

/-- A checkpoint file with an embedding of two words, the second of which is no number. -/
def embedding : Bytes :=
  let description := "\x7b\"wte.weight\":\x7b\"dtype\":\"F32\",\"shape\":[2,1]," ++
    "\"data_offsets\":[0,8]\x7d\x7d"
  LittleEndian.toBytes 8 description.length ++
    (description.toList.map fun c => UInt8.ofNat c.toNat) ++ [0, 0, 128, 63, 1, 0, 192, 127]

/-- A tree with that file. -/
def stored : Disk := { blank with tree := FileTree.empty.insert ["model"] (.file embedding) }

/-- The converter that writes files under their own names from the start. -/
def direct : Converter (StateM Disk) :=
  converterOf { output := { dir := ".", atomicWrites := false } }

theorem convertFile_lossless_stored :
    blank.outcome (Converter.ofConfig direct.config) = (.ok direct, blank) ∧
      direct.config.output.onCollision = .error ∧
      (stored.outcome (direct.convertFile "model")).1 = .ok ⟨1, 0, 2, 32, 0⟩ ∧
      ∃ file l, stored.outcome (direct.openCheckpoint "model") = (.ok file, stored) ∧
        stored.lead? (outputPath "." direct.config.output) = some l ∧
        ∀ key info, file.header.tensors.find? key = some info → info.dtype = .f32 →
          direct.config.naming.layout key ≠ .dropped → ∃ dims, info.shape.canonical = .ok dims ∧
            (file.range info).length = dims.outer * dims.middle * dims.inner * 4 ∧
            (direct.config.naming.layout key).Reassembles
              ((stored.outcome (direct.convertFile "model")).2.filed l)
              ⟨dims, file.words info⟩ := by
  have hmake : blank.outcome (Converter.ofConfig direct.config) = (.ok direct, blank) :=
    outcome_ofConfig (by decide +kernel) (by decide +kernel)
  have hresult : (stored.outcome (direct.convertFile "model")).1 = .ok ⟨1, 0, 2, 32, 0⟩ := by
    decide +kernel
  have hlossless := convertFile_lossless (d := stored) hmake rfl hresult
  exact ⟨hmake, rfl, hresult, hlossless⟩

end Disk

end FlatWeights
