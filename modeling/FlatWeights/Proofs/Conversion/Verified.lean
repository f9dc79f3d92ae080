import FlatWeights.Proofs.Conversion.Lossless
import FlatWeights.Proofs.Conversion.Report

/-!
A check after a run. What a run writes passes the check of the output directory, because the tensors
of a checkpoint have as many elements as their shapes ask for, and neither three axes nor a cut
change that (`Checkpoint.full_of_outputs`): the header of a file counts the elements behind it. With
what passed before, and nothing else, the check reports the names of the run (`convert_verified`).

The check follows the path of the output directory again. It may have led through the staging
directory, which is gone after a run, or through directories that the run had to make and that look
like weight files; `InOrder` leaves out such paths.
-/

set_option autoImplicit false

namespace FlatWeights

open Emitter WeightFile

/-! ## Tensors with the elements that their shapes ask for -/

theorem RawTensor.length_of_make {name : String} {shape : Shape} {data : List Element}
    {raw : RawTensor} (h : RawTensor.make name shape data = .ok raw) :
    raw.data.length = raw.shape.prod := by
  rw [RawTensor.make] at h
  split at h
  · exact absurd h (by simp)
  · rename_i expected hexpected
    split at h
    · rename_i hlength
      obtain rfl := Except.ok.inj h
      exact hlength.symm.trans (Size.product?_eq_some hexpected)
    · exact absurd h (by simp)

namespace Checkpoint

variable {c : Checkpoint} {naming : Naming} {keys : List String} {outs : List OutputTensor}

/-- The tensors of a checkpoint are as they are made, with the elements that their shapes ask
for. -/
def Exact (c : Checkpoint) : Prop :=
  ∀ key raw, c.get key = .ok raw → RawTensor.make raw.name raw.shape raw.data = .ok raw

/-- The tensors of a checkpoint are as they are made if those that it was made from are. -/
theorem exact_ofList {items : List (String × Except Stop RawTensor)}
    (h : ∀ raw ∈ items.filterMap fun item => item.2.toOption,
      RawTensor.make raw.name raw.shape raw.data = .ok raw) : (ofList items).Exact := by
  intro key raw hraw
  cases hlookup : items.lookup key with
  | none => simp [ofList, hlookup] at hraw
  | some result =>
    obtain rfl : result = .ok raw := by simpa [ofList, hlookup] using hraw
    obtain ⟨front, back, rfl, -⟩ := List.lookup_eq_some_iff.1 hlookup
    exact h raw (List.mem_filterMap.2 ⟨(key, .ok raw), by simp, rfl⟩)

/-- The outputs of an exact checkpoint have as many elements as their dimensions say. -/
theorem full_of_outputs (hexact : c.Exact) (h : c.outputsOf naming keys = .ok outs) :
    ∀ t ∈ outs, CanonicalTensor.Full ⟨t.dims, t.data⟩ := by
  induction keys generalizing outs with
  | nil =>
    obtain rfl : [] = outs := Except.ok.inj h
    simp
  | cons key keys ih =>
    obtain ⟨outputs, later, hkey, hlater, rfl⟩ := outputsOf_cons_eq_ok_iff.1 h
    cases hraw : c.get key with
    | error stop =>
      rw [hraw] at hkey
      exact absurd hkey (by simp [bind, Except.bind])
    | ok raw =>
      rw [hraw] at hkey
      obtain ⟨dims, hdims, houtputs⟩ := Naming.outputs_of_resolve hkey
      have hcount := RawTensor.length_of_make (hexact key raw hraw)
      have hfull := houtputs.full (RawTensor.full_of_canonical hdims hcount)
      intro t ht
      rcases List.mem_append.1 ht with ht | ht
      · exact hfull t ht
      · exact ih hlater t ht

end Checkpoint

/-! ## The counts of a run -/

namespace Emitter

variable {emitter next : Emitter} {outs : List OutputTensor}

/-- An emitter counts the files that it accepts, each with its header and the elements that its axes
ask for. -/
theorem counts_of_acceptAll? (h : emitter.acceptAll? outs = some next)
    (hbytes : emitter.stats.bytes < Size.limit) :
    next.stats.files = emitter.stats.files + outs.length ∧
      next.stats.bytes = emitter.stats.bytes + (outs.map fun t =>
        headerLength + t.dims.outer * t.dims.middle * t.dims.inner * 4).sum ∧
      next.stats.bytes < Size.limit := by
  -- the induction is over emitters: what one file adds is counted before the others are accepted
  induction outs generalizing emitter with
  | nil =>
    obtain rfl : emitter = next := Option.some.inj h
    exact ⟨rfl, rfl, hbytes⟩
  | cons t outs ih =>
    rw [acceptAll?_cons] at h
    obtain ⟨first, hfirst, hrest⟩ := Option.bind_eq_some_iff.1 h
    obtain ⟨header, total, hheader, htotal, -, rfl⟩ := accept?_eq_some_iff.1 hfirst
    obtain ⟨payload, hpayload, rfl, hlimit⟩ := total?_eq_some_iff.1 htotal
    obtain ⟨rfl, -⟩ := Header.payloadLength?_eq_some_iff.1 hpayload
    obtain ⟨hfiles, hsum, hless⟩ := ih hrest hlimit
    refine ⟨?_, ?_, hless⟩
    · rw [hfiles, List.length_cons]
      simp only
      omega
    · rw [hsum, List.map_cons, List.sum_cons, Header.count, Header.lengths_of_ofDims? hheader]
      simp only
      omega

/-- An emitter counts the files that it accepts, and all their bytes. -/
theorem stats_of_acceptAll? (h : emitter.acceptAll? outs = some next)
    (hfull : ∀ t ∈ outs, CanonicalTensor.Full ⟨t.dims, t.data⟩)
    (hbytes : emitter.stats.bytes < Size.limit) :
    next.stats.files = emitter.stats.files + outs.length ∧
      next.stats.bytes =
        emitter.stats.bytes + (outs.map fun t => headerLength + t.data.length * 4).sum ∧
      next.stats.bytes < Size.limit := by
  have hlengths : (outs.map fun t => headerLength + t.data.length * 4) = outs.map fun t =>
      headerLength + t.dims.outer * t.dims.middle * t.dims.inner * 4 :=
    List.map_congr_left fun t ht => congrArg (headerLength + · * 4) (hfull t ht)
  rw [hlengths]
  exact counts_of_acceptAll? h hbytes

end Emitter

namespace Disk

variable {d d₀ d₁ e : Disk} {base p : Path} {buffer : Nat} {output : OutputSettings}
  {l : Location}
  {outs : List OutputTensor} {naming : Naming} {checkpoint : Checkpoint} {next : Emitter}
  {s : String}

/-! ## The directory before and after a run -/

/-- A path leads to a place in whose weight files nothing is wrong, so that they pass a check if
there is a buffer to read them through, and there is one. The path does not pass through what a run
makes or removes there. -/
structure InOrder (d : Disk) (buffer : Nat) (p : Path) (l : Location) : Prop where
  lead : d.lead? p = some l
  apart : ∀ k ∈ d.visits p, ¬ ".staging" :: l <:+ k ∧
    ∀ s, VerifyReport.Shown s → k ≠ fileName s :: l
  names : ∀ x ∈ d.tree.names l, '/' ∉ x.toList
  earlier : ∀ s, VerifyReport.Shown s → fileName s ∈ d.tree.names l →
    buffer < Size.bufferLimit ∧ d.TakesEntry p (fileName s) ∧ (d.filed l s).isSome

/-- What is known of the disk after a run whose way to the output directory is still open. -/
structure Delivered (buffer : Nat) (p : Path) (output : OutputSettings) (l : Location)
    (outs : List OutputTensor) (next : Emitter) (d e : Disk) : Prop where
  effect : Effect p l outs d e
  reached : e.DirAt p l
  limits : SameLimits d e
  accepted : Emitter.acceptAll? { output } outs = some next
  valid : ∀ t ∈ outs, validOutputName t.name = true
  room : ∀ t ∈ outs, buffer < Size.bufferLimit
  takes : ∀ t ∈ outs, d.TakesEntry p (fileName t.name)

/-- A run that succeeds delivers its outputs. -/
theorem delivered_of_perform (hout : outputPath base output ≠ "") {report : ConversionReport}
    (h : (d.run (Conversion.perform (Storage.below base buffer) output naming
      checkpoint)).1.result = .ok report) (horder : d.InOrder buffer (outputPath base output) l) :
    ∃ outs next, checkpoint.outputs naming = .ok outs ∧
      Delivered buffer (outputPath base output) output l outs next d
        (d.run (Conversion.perform (Storage.below base buffer) output naming checkpoint)).2 ∧
      report.filesWritten = next.stats.files ∧ report.bytesWritten = next.stats.bytes := by
  obtain ⟨d₁, l', outs, next, hstart, hbegun, hpossible⟩ := possible_of_perform hout h
  obtain rfl : l = l' := Option.some.inj (horder.lead.symm.trans hbegun.lead)
  obtain ⟨_, _, e, hpublished, hready, hrun⟩ :=
    perform_of_possible hout hstart hbegun hpossible
  have hclear := hpossible.clear_written
  obtain ⟨hstaging, hdir⟩ := hpublished.dirAt hready hclear
  have htakes := (hstaging.out hout).2
  -- a way of the run is a way of the disk before it
  have hvisits : ∀ k ∈ e.visits (outputPath base output),
      k ∈ d.visits (outputPath base output) := by
    intro k hk
    have horigin := hpublished.origin
    rw [origin_staging hout, origin_staging hout] at horigin
    rw [visits, horigin] at hk
    exact WorkingDir.visits_of_fell hbegun.fell hk
  obtain ⟨-, -, hreached⟩ := without_of_apart hdir isName_staging htakes fun k hk =>
    (horder.apart k (hvisits k hk)).1
  have hlimits : SameLimits d (e.without (stagingPath base output)) :=
    (hbegun.limits.trans hpublished.limits).trans
      (hpublished.without hready hclear).1.limits
  refine ⟨outs, next, hpossible.outputs, ?_, ?_⟩
  · rw [hrun]
    refine ⟨effect_of_published hbegun hpossible hready hpublished, hreached, hlimits,
      hpossible.accepted, hready.names, fun t ht => (hpossible.fits t ht).room, fun t ht => ?_⟩
    exact hbegun.limits.symm.takesEntry ((hpossible.fits t ht).place.file.1.out (hready.names t ht))
  · obtain ⟨calls, houts, hall, rfl⟩ := report_of_perform hstart h
    obtain rfl : outs = calls := Except.ok.inj (hpossible.outputs.symm.trans houts)
    have hbare := acceptAll?_of_offered hall
    have hnext : next = (d₁.offered (Storage.below base buffer) { output } outs).1.2.bare :=
      Option.some.inj (hpossible.accepted.symm.trans hbare)
    rw [hnext]
    exact ⟨rfl, rfl⟩

section Delivered

variable (h : Delivered buffer p output l outs next d e)

include h

/-- What the run neither wrote nor made is as it was. -/
theorem Delivered.unchanged (horder : d.InOrder buffer p l) (hshown : VerifyReport.Shown s)
    (hs : ¬ ∃ t ∈ outs, t.name = s) :
    e.tree.find? (fileName s :: l) = d.tree.find? (fileName s :: l) := by
  refine h.effect.unchanged _ (file_not_in_staging s l) ?_ ?_
  · intro hmem
    exact (horder.apart _ hmem).2 s hshown rfl
  · intro t ht heq
    exact hs ⟨t, ht, (fileName_injective (List.cons.inj heq).1).symm⟩

/-- The output names in the directory are those that were there and those of the outputs. -/
theorem Delivered.mem_shown_iff (horder : d.InOrder buffer p l) : s ∈ e.shown p ↔
    VerifyReport.Shown s ∧ fileName s ∈ d.tree.names l ∨ ∃ t ∈ outs, t.name = s := by
  rw [h.reached.mem_shown_iff, FileTree.mem_names, FileTree.mem_names]
  by_cases hs : ∃ t ∈ outs, t.name = s
  · obtain ⟨t, ht, rfl⟩ := hs
    obtain ⟨last, header, -, -, hfile⟩ := h.effect.files t ht
    have hvalid := h.valid t ht
    have hshown : VerifyReport.Shown t.name := by
      refine ⟨?_, head_ne_dot hvalid⟩
      rintro hempty
      rw [hempty] at hvalid
      exact absurd hvalid (by decide)
    rw [hfile]
    exact ⟨fun _ => .inr ⟨t, ht, rfl⟩, fun _ => ⟨hshown, rfl⟩⟩
  · rw [or_iff_left hs]
    refine and_congr_right fun hshown => ?_
    rw [h.unchanged horder hshown hs]

/-- The file of an output is read back, if the last output of its name has the elements that its
shape asks for. -/
theorem Delivered.filed (hfull : ∀ t ∈ outs, CanonicalTensor.Full ⟨t.dims, t.data⟩)
    {t : OutputTensor} (ht : t ∈ outs) : (e.filed l t.name).isSome := by
  obtain ⟨last, header, hlast, hdims, hfile⟩ := h.effect.files t ht
  obtain ⟨hmem, hname⟩ := exists_of_lastOutput? hlast
  obtain ⟨header', n, hdims', hpayload⟩ := Emitter.exists_payload_of_acceptAll? h.accepted hmem
  obtain rfl : header = header' := Option.some.inj (hdims.symm.trans hdims')
  rw [← hname] at hfile
  rw [← fileName_injective hname, filed_of_encode hdims hpayload (hfull last hmem) hfile]
  rfl

/-- After the run all weight files of the directory are sound. -/
theorem Delivered.sound (horder : d.InOrder buffer p l)
    (hfull : ∀ t ∈ outs, CanonicalTensor.Full ⟨t.dims, t.data⟩) :
    ∀ s ∈ e.shown p, Path.IsName (fileName s) ∧ e.Sound buffer p s := by
  intro s hs
  by_cases hout : ∃ t ∈ outs, t.name = s
  · obtain ⟨t, ht, rfl⟩ := hout
    have hx := isName_fileName (h.valid t ht)
    rw [h.reached.sound_iff hx, h.reached.decoded_eq]
    exact ⟨hx, h.room t ht, h.limits.takesEntry (h.takes t ht), h.filed hfull ht⟩
  · obtain ⟨hshown, hentry⟩ := ((h.mem_shown_iff horder).1 hs).resolve_right hout
    have hx := isName_fileName_of_noSlash (horder.names _ hentry)
    obtain ⟨hroom, htakes, hfiled⟩ := horder.earlier s hshown hentry
    rw [h.reached.sound_iff hx, h.reached.decoded_eq, Disk.filed, h.unchanged horder hshown hout]
    exact ⟨hx, hroom, h.limits.takesEntry htakes, hfiled⟩

/-- Where no name may be given twice and no weight file was there, the files of the directory are
those of the outputs, and their bytes are those that were counted. -/
theorem Delivered.counts (horder : d.InOrder buffer p l)
    (hfull : ∀ t ∈ outs, CanonicalTensor.Full ⟨t.dims, t.data⟩)
    (hpolicy : output.onCollision = .error)
    (hfresh : ∀ s, VerifyReport.Shown s → fileName s ∉ d.tree.names l) :
    (e.shown p).length = next.stats.files ∧
      ((e.shown p).map fun s => e.fileLength (fileName s :: l) - headerLength).sum +
        headerLength * next.stats.files = next.stats.bytes ∧ next.stats.bytes < Size.limit := by
  obtain ⟨hnodup, -⟩ := Emitter.nodup_of_acceptAll? h.accepted hpolicy
  have hstart : ({ output } : Emitter).stats = {} := rfl
  obtain ⟨hfiles, hbytes, hlimit⟩ := stats_of_acceptAll? h.accepted hfull
    (by rw [hstart]; exact (by decide : 0 < Size.limit))
  -- there were no weight files, so the names that are shown are those of the outputs, each once
  have hperm : (e.shown p).Perm (outs.map (·.name)) := by
    refine (List.perm_ext_iff_of_nodup (e.nodup_shown p) hnodup).2 fun s => ?_
    rw [h.mem_shown_iff horder, List.mem_map]
    exact or_iff_right fun hearlier => hfresh s hearlier.1 hearlier.2
  have hlengths : ∀ t ∈ outs,
      e.fileLength (fileName t.name :: l) - headerLength = t.data.length * 4 := by
    intro t ht
    rw [h.effect.fileLength hnodup ht]
    omega
  have hsum : ((e.shown p).map fun s => e.fileLength (fileName s :: l) - headerLength).sum =
      (outs.map fun t => t.data.length * 4).sum := by
    rw [(hperm.map _).sum_eq, List.map_map]
    exact congrArg List.sum (List.map_congr_left hlengths)
  have hheaders : (outs.map fun t => headerLength + t.data.length * 4).sum =
      headerLength * outs.length + (outs.map fun t => t.data.length * 4).sum := by
    rw [List.sum_map_add, List.map_const', List.sum_replicate_nat, Nat.mul_comm]
  rw [hstart] at hfiles hbytes
  rw [hheaders] at hbytes
  simp only [Nat.zero_add] at hfiles hbytes
  refine ⟨?_, ?_, hlimit⟩
  · rw [hperm.length_eq, List.length_map, hfiles]
  · rw [hsum, hfiles, hbytes, Nat.add_comm]

/-- The check reports all of it, unless it is too much to be counted. -/
theorem Delivered.verified (hp : base.join output.dir = p) (horder : d.InOrder buffer p l)
    (hfull : ∀ t ∈ outs, CanonicalTensor.Full ⟨t.dims, t.data⟩) :
    let total := ((e.shown p).map fun s => e.fileLength (fileName s :: l) - headerLength).sum
    e.outcome (VerifyReport.ofDirectory (Storage.below base buffer) output.dir) =
      (if total < Size.limit then .ok ⟨e.shown p, total⟩ else .error .overflow, e) := by
  subst hp
  have hsound := h.sound horder hfull
  have hpayload : (e.shown (base.join output.dir)).map (e.payload (base.join output.dir)) =
      (e.shown (base.join output.dir)).map
        fun s => e.fileLength (fileName s :: l) - headerLength :=
    List.map_congr_left fun s hs =>
      h.reached.payload_eq_fileLength (hsound s hs).1 (hsound s hs).2
  rw [← hpayload]
  exact outcome_ofDirectory_of_sound h.reached.kind? fun s hs => (hsound s hs).2

end Delivered

/-! ## The check after the run -/

/-- **What a run has written passes the check.** After a conversion that succeeds, the check of its
output directory reports the names that passed before and those of its outputs, each once, with the
bytes behind the headers of their files, unless these are no size together. If no weight file was
there before and names may not collide, they are, and the counts of the run say the same. -/
theorem convert_verified {config : Config} {converter : Converter (StateM Disk)}
    (hmake : d₀.outcome (Converter.ofConfig config) = (.ok converter, d₁))
    (hexact : checkpoint.Exact)
    (horder : d.InOrder config.storage.bufferSize (outputPath "." config.output) l)
    {report : ConversionReport}
    (h : (d.run (converter.convert checkpoint)).1.result = .ok report) :
    let e := (d.run (converter.convert checkpoint)).2
    ∃ outs files, checkpoint.outputs config.naming = .ok outs ∧ files.Nodup ∧
      (∀ s, s ∈ files ↔ VerifyReport.Shown s ∧ fileName s ∈ d.tree.names l ∨
        ∃ t ∈ outs, t.name = s) ∧
      let total := (files.map fun s => e.fileLength (fileName s :: l) - headerLength).sum
      e.outcome converter.verify =
        (if total < Size.limit then .ok ⟨files, total⟩ else .error .overflow, e) ∧
      (config.output.onCollision = .error →
        (∀ s, VerifyReport.Shown s → fileName s ∉ d.tree.names l) →
          files.length = report.filesWritten ∧
          total + headerLength * report.filesWritten = report.bytesWritten ∧
          total < Size.limit) := by
  obtain ⟨-, rfl⟩ := converter_of_config hmake
  intro e
  obtain ⟨outs, next, houts, hdelivered, hfiles, hbytes⟩ :=
    delivered_of_perform (outputPath_ne_empty config.output) h horder
  have hfull := Checkpoint.full_of_outputs hexact houts
  -- the names are those of the weight files that are there now
  refine ⟨outs, e.shown (outputPath "." config.output), houts, e.nodup_shown _,
    fun s => hdelivered.mem_shown_iff horder, hdelivered.verified rfl horder hfull,
    fun hpolicy hfresh => ?_⟩
  obtain ⟨hlength, hsum, hlimit⟩ := hdelivered.counts horder hfull hpolicy hfresh
  rw [hfiles, hbytes]
  exact ⟨hlength, hsum, Nat.lt_of_le_of_lt (Nat.le.intro hsum) hlimit⟩

/-- The converter that writes to `out`. -/
def filing : Converter (StateM Disk) := converterOf { output := { dir := "out" } }

theorem exact_singleton : singleton.Exact := Checkpoint.exact_ofList (by decide +kernel)

theorem inOrder_assorted :
    assorted.InOrder Size.defaultBuffer (outputPath "." filing.config.output) ["out"] := by
  have hnames : assorted.tree.names ["out"] = [".b.bin", "a.bin", "notes.txt"] := by decide +kernel
  have hvisits : assorted.visits (outputPath "." filing.config.output) = [[], [], ["out"]] := by
    decide +kernel
  have hshort : ∀ k ∈ assorted.visits (outputPath "." filing.config.output), k.length < 2 := by
    rw [hvisits]
    decide
  refine ⟨by decide +kernel, fun k hk => ⟨fun hsuf => ?_, ?_⟩, ?_, ?_⟩
  · exact absurd (hshort k hk) (Nat.not_lt.2 hsuf.length_le)
  · rintro s - rfl
    exact absurd (hshort _ hk) (Nat.lt_irrefl 2)
  · rw [hnames]
    decide
  · intro s hshown hentry
    have hat : assorted.DirAt (outputPath "." filing.config.output) ["out"] :=
      ⟨by decide +kernel, by decide +kernel⟩
    have hmem : s ∈ assorted.shown (outputPath "." filing.config.output) :=
      hat.mem_shown_iff.2 ⟨hshown, hentry⟩
    have hall : assorted.shown (outputPath "." filing.config.output) = ["a"] := by decide +kernel
    rw [hall] at hmem
    obtain rfl := List.mem_singleton.1 hmem
    exact ⟨by decide, ⟨by decide +kernel, by decide +kernel⟩, by decide +kernel⟩

/-- One tensor converted into a directory that holds a sound file already. -/
theorem convert_verified_assorted :
    blank.outcome (Converter.ofConfig filing.config) = (.ok filing, blank) ∧
      singleton.Exact ∧
      assorted.InOrder Size.defaultBuffer (outputPath "." filing.config.output) ["out"] ∧
      (assorted.run (filing.convert singleton)).1.result = .ok ⟨1, 0, 1, 16, 0⟩ ∧
      ∃ files : List String, files.Perm ["a", "x"] ∧
        ((assorted.run (filing.convert singleton)).2.outcome filing.verify).1 =
          .ok ⟨files, 8⟩ := by
  have hmake : blank.outcome (Converter.ofConfig filing.config) = (.ok filing, blank) :=
    outcome_ofConfig (by decide +kernel) (by decide +kernel)
  have hresult : (assorted.run (filing.convert singleton)).1.result = .ok ⟨1, 0, 1, 16, 0⟩ := by
    decide +kernel
  obtain ⟨outs, files, houts, hnodup, hfiles, hverify, -⟩ :=
    convert_verified hmake exact_singleton inOrder_assorted hresult
  have hone : singleton.outputs filing.config.naming = .ok [⟨"x", ⟨1, 1, 1⟩, [1]⟩] := by
    decide +kernel
  obtain rfl := Except.ok.inj (houts.symm.trans hone)
  have hat : assorted.DirAt (outputPath "." filing.config.output) ["out"] :=
    ⟨by decide +kernel, by decide +kernel⟩
  have hall : assorted.shown (outputPath "." filing.config.output) = ["a"] := by decide +kernel
  have hperm : files.Perm ["a", "x"] := by
    refine (List.perm_ext_iff_of_nodup hnodup (by decide)).2 fun s => ?_
    rw [hfiles, ← hat.mem_shown_iff, hall]
    simp [eq_comm]
  have hsum : (files.map fun s =>
      (assorted.run (filing.convert singleton)).2.fileLength (fileName s :: ["out"]) -
        headerLength).sum = 8 := by
    rw [(hperm.map _).sum_eq]
    decide +kernel
  rw [hsum, if_pos (by decide)] at hverify
  exact ⟨hmake, exact_singleton, inOrder_assorted, hresult, files, hperm,
    congrArg Prod.fst hverify⟩

/-- The check cannot follow a path that has led through the staging directory, and it stumbles over
a directory that the run had to make where a weight file would be. -/
theorem check_fails_on_detour :
    let gone : Converter (StateM Disk) :=
      converterOf { output := { dir := ".staging/.." } }
    let after := blank.run (gone.convert singleton)
    let made : Converter (StateM Disk) := converterOf { output := { dir := "y.bin/.." } }
    let after' := blank.run (made.convert singleton)
    singleton.Exact ∧ gone.config.fault? = none ∧ made.config.fault? = none ∧
      blank.tree.names [] = [] ∧
      after.1.result = .ok ⟨1, 0, 1, 16, 0⟩ ∧
      (after.2.outcome gone.verify).1 =
        .error (.failed (.storeOpen ".staging/.." .missingOutput)) ∧
      after'.1.result = .ok ⟨1, 0, 1, 16, 0⟩ ∧
      (after'.2.outcome made.verify).1 =
        .error (.failed (.tensorRead "y" .headerOfDirectory)) := by
  refine ⟨exact_singleton, ?_⟩
  decide +kernel

end Disk

end FlatWeights
