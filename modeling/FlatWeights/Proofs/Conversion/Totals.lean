import FlatWeights.Proofs.Conversion.Verified

/-!
The totals of a run that succeeds. The tensors are counted as they are gone through and the files
as they are staged, while the output directory is looked at; what the counts say in the end is what
the checkpoint held, what was written, and what the tree had before the run (`perform_totals`).

The bytes of a file are computed from its header. They are the bytes of the file where the tensors
have as many elements as their shapes ask for, so that in a directory that had no files before, the
report gives the number of its files and their size (`Effect.perm_filesIn`).
-/

set_option autoImplicit false

namespace FlatWeights

open Emitter WeightFile

namespace Disk

variable {d d₀ d₁ e : Disk} {base p : Path} {buffer : Nat} {output : OutputSettings}
  {l : Location}
  {outs : List OutputTensor} {naming : Naming} {checkpoint : Checkpoint} {next : Emitter}

/-! ## The files of a directory -/

/-- The names of the files in the directory at a location. -/
def filesIn (d : Disk) (l : Location) : List String :=
  (d.tree.names l).filter fun x =>
    match d.tree.find? (x :: l) with
    | some (.file _) => true
    | _ => false

/-- The files of a directory are the names under which it has one. -/
theorem mem_filesIn {x : String} :
    x ∈ d.filesIn l ↔ ∃ content, d.tree.find? (x :: l) = some (.file content) := by
  rw [filesIn, List.mem_filter, FileTree.mem_names]
  cases d.tree.find? (x :: l) with
  | none => simp
  | some entry => cases entry <;> simp

/-- Each is listed once. -/
theorem nodup_filesIn (d : Disk) (l : Location) : (d.filesIn l).Nodup :=
  (d.tree.nodup_names l).filter _

/-- Where there was no file and no name is given twice, the files are those of the outputs. -/
theorem Effect.perm_filesIn (h : Effect p l outs d e) (hnodup : (outs.map (·.name)).Nodup)
    (hnone : d.filesIn l = []) : (e.filesIn l).Perm (outs.map fun t => fileName t.name) := by
  have hnodup' : (outs.map fun t => fileName t.name).Nodup := by
    have hnames := hnodup.map fileName_injective
    rwa [List.map_map] at hnames
  refine (List.perm_ext_iff_of_nodup (e.nodup_filesIn l) hnodup').2 fun x => ?_
  rw [mem_filesIn, List.mem_map]
  constructor
  · rintro ⟨content, hfile⟩
    by_contra hother
    -- it was not written, it is not a directory, and it was not there before
    by_cases hstaging : ".staging" :: l <:+ x :: l
    · rw [← List.IsSuffix.eq_of_length hstaging rfl] at hfile
      rcases h.staging with hgone | ⟨hremains, -⟩
      · exact absurd (hfile.symm.trans hgone) (by simp)
      · exact absurd (hfile.symm.trans hremains) (by simp)
    by_cases hpassed : x :: l ∈ d.visits p
    · exact absurd (hfile.symm.trans (h.passed _ hpassed hstaging)) (by simp)
    have hsame := h.unchanged _ hstaging hpassed fun t ht heq =>
      hother ⟨t, ht, (List.cons.inj heq).1.symm⟩
    have hbefore : x ∈ d.filesIn l := mem_filesIn.2 ⟨content, hsame.symm.trans hfile⟩
    rw [hnone] at hbefore
    exact absurd hbefore (by simp)
  · rintro ⟨t, ht, rfl⟩
    obtain ⟨last, header, -, -, hfile⟩ := h.files t ht
    exact ⟨_, hfile⟩

/-! ## The names that are there already -/

/-- The output directory has an output name when a run has begun if it had it before. -/
theorem Possible.holds (hbegun : Begun base output l d d₁)
    (h : Possible base buffer output naming checkpoint l outs next d₁)
    (hready : Ready base output l d₁ outs) {n : String} (hn : n ∈ next.written.toList) :
    d₁.holds (Storage.below base buffer) (finalPath output n) =
      (d.tree.find? (fileName n :: l)).isSome := by
  obtain ⟨t, ht, rfl⟩ := (h.written n).1 hn
  have hname := hready.names t ht
  rw [(hbegun.staging.out hready.out).1.holds_eq hname ((h.fits t ht).place.file.1.out hname)]
  rcases hbegun.outside _ (file_not_in_staging t.name l) with hsame | ⟨-, hmade, -⟩
  · rw [hsame]
  · exact absurd hmade (h.clear t ht)

/-! ## The report -/

/-- The report of a run that succeeds. -/
theorem perform_totals (hout : outputPath base output ≠ "") {report : ConversionReport}
    (h : (d.run (Conversion.perform (Storage.below base buffer) output naming
      checkpoint)).1.result = .ok report) :
    let e := (d.run (Conversion.perform (Storage.below base buffer) output naming checkpoint)).2
    ∃ l outs, d.lead? (outputPath base output) = some l ∧
      checkpoint.outputs naming = .ok outs ∧
      report.tensorsRead = checkpoint.keys.length ∧
      report.tensorsDropped = checkpoint.keys.countP (checkpoint.drops naming) ∧
      report.filesWritten = outs.length ∧
      report.bytesWritten = (outs.map fun t =>
        headerLength + t.dims.outer * t.dims.middle * t.dims.inner * 4).sum ∧
      report.overwritten = (outs.map (·.name)).dedup.countP (fun n =>
        (d.tree.find? (fileName n :: l)).isSome) ∧
      (output.onCollision = .error → (outs.map (·.name)).Nodup) ∧
      Effect (outputPath base output) l outs d e := by
  obtain ⟨d₁, l, outs, next, hstart, hbegun, hpossible⟩ := possible_of_perform hout h
  obtain ⟨_, _, e, hpublished, hready, hrun⟩ :=
    perform_of_possible hout hstart hbegun hpossible
  obtain ⟨hfiles, hbytes, -⟩ := counts_of_acceptAll? hpossible.accepted
    (show 0 < Size.limit by decide)
  -- the start leaves the files of the output directory, so those replaced were there before
  have hthere : next.written.toList.countP (fun n =>
      d₁.holds (Storage.below base buffer) (finalPath output n)) =
        (outs.map (·.name)).dedup.countP fun n => (d.tree.find? (fileName n :: l)).isSome := by
    rw [← hpossible.written_perm.countP_eq]
    refine List.countP_congr fun n hn => ?_
    rw [hpossible.holds hbegun hready hn]
  have hreport := report_of_possible hout hstart hbegun hpossible h
  simp only [Nat.zero_add] at hfiles hbytes
  rw [hfiles, hbytes, hthere] at hreport
  subst hreport
  refine ⟨l, outs, hbegun.lead, hpossible.outputs, rfl, rfl, rfl, rfl, rfl, ?_, ?_⟩
  · exact fun hpolicy => (nodup_of_acceptAll? hpossible.accepted hpolicy).1
  · rw [hrun]
    exact effect_of_published hbegun hpossible hready hpublished

/-- **The report of a conversion that succeeds is exact.** It counts the tensors of the checkpoint
and those that gave no output, the outputs, their bytes, and the names of outputs that the output
directory had before the run. The bytes are those of the headers and of the elements that the axes
ask for; these are the elements that there are if the tensors are as they are made. If names may not
collide and the directory had no files, the files that it has after the run are as many as the
report says, and as large together. -/
theorem convert_totals {config : Config} {converter : Converter (StateM Disk)}
    (hmake : d₀.outcome (Converter.ofConfig config) = (.ok converter, d₁))
    {report : ConversionReport}
    (h : (d.run (converter.convert checkpoint)).1.result = .ok report) :
    let e := (d.run (converter.convert checkpoint)).2
    ∃ l outs, d.lead? (outputPath "." config.output) = some l ∧
      checkpoint.outputs config.naming = .ok outs ∧
      report.tensorsRead = checkpoint.keys.length ∧
      report.tensorsDropped = checkpoint.keys.countP (checkpoint.drops config.naming) ∧
      report.filesWritten = outs.length ∧
      report.bytesWritten = (outs.map fun t =>
        12 + 4 * (t.dims.outer * t.dims.middle * t.dims.inner)).sum ∧
      (checkpoint.Exact → report.bytesWritten = (outs.map fun t => 12 + 4 * t.data.length).sum) ∧
      report.overwritten = (outs.map (·.name)).dedup.countP (fun n =>
        (d.tree.find? (fileName n :: l)).isSome) ∧
      (config.output.onCollision = .error → d.filesIn l = [] →
        report.filesWritten = (e.filesIn l).length ∧
        (checkpoint.Exact →
          report.bytesWritten = ((e.filesIn l).map fun x => e.fileLength (x :: l)).sum)) := by
  obtain ⟨-, rfl⟩ := converter_of_config hmake
  simp only [convert_converterOf] at h ⊢
  obtain ⟨l, outs, hlead, houts, hread, hdropped, hfiles, hbytes, hover, hnodup, heffect⟩ :=
    perform_totals (outputPath_ne_empty config.output) h
  have hfull (hexact : checkpoint.Exact) :
      report.bytesWritten = (outs.map fun t => headerLength + t.data.length * 4).sum := by
    rw [hbytes]
    exact congrArg List.sum (List.map_congr_left fun t ht =>
      congrArg (headerLength + · * 4) (Checkpoint.full_of_outputs hexact houts t ht).symm)
  refine ⟨l, outs, hlead, houts, hread, hdropped, hfiles, ?_, fun hexact => ?_, hover,
    fun hpolicy hnone => ?_⟩
  · simp only [hbytes, headerLength, Nat.mul_comm]
  · simp only [hfull hexact, headerLength, Nat.mul_comm]
  · -- without a clash every output is a file of its own, and there were none before
    have hperm := heffect.perm_filesIn (hnodup hpolicy) hnone
    refine ⟨?_, fun hexact => ?_⟩
    · rw [hfiles, hperm.length_eq, List.length_map]
    · rw [hfull hexact, (hperm.map _).sum_eq, List.map_map]
      exact congrArg List.sum (List.map_congr_left fun t ht =>
        (heffect.fileLength (hnodup hpolicy) ht).symm)

/-- A tensor that is written, one that is left out, and one that is cut in two. -/
def mixed : Checkpoint := .ofList [("a", .ok ⟨"a", [1], [1]⟩),
  ("h.0.attn.bias", .ok ⟨"h.0.attn.bias", [1], [2]⟩),
  ("wte.weight", .ok ⟨"wte.weight", [2, 1], [3, 4]⟩)]

/-- Four keys, one dropped, into a directory that holds a file of one of the names and into one that
is not there. -/
theorem convert_totals_mixed :
    blank.outcome (Converter.ofConfig filing.config) = (.ok filing, blank) ∧
      (assorted.run (filing.convert mixed)).1.result = .ok ⟨3, 1, 3, 48, 1⟩ ∧
      (blank.run (filing.convert mixed)).1.result = .ok ⟨3, 1, 3, 48, 0⟩ ∧
      (∃ outs, mixed.outputs filing.config.naming = .ok outs ∧
        48 = (outs.map fun t => 12 + 4 * t.data.length).sum) ∧
      let e := (blank.run (filing.convert mixed)).2
      3 = (e.filesIn ["out"]).length ∧
        48 = ((e.filesIn ["out"]).map fun x => e.fileLength (x :: ["out"])).sum := by
  have hmake : blank.outcome (Converter.ofConfig filing.config) = (.ok filing, blank) :=
    outcome_ofConfig (by decide +kernel) (by decide +kernel)
  have hexact : mixed.Exact := Checkpoint.exact_ofList (by decide +kernel)
  have hassorted : (assorted.run (filing.convert mixed)).1.result = .ok ⟨3, 1, 3, 48, 1⟩ := by
    decide +kernel
  have hblank : (blank.run (filing.convert mixed)).1.result = .ok ⟨3, 1, 3, 48, 0⟩ := by
    decide +kernel
  obtain ⟨-, outs, -, houts, -, -, -, -, hbytes, -⟩ := convert_totals hmake hassorted
  obtain ⟨l, -, hlead, -, -, -, -, -, -, -, hfiles⟩ := convert_totals hmake hblank
  have hout : blank.lead? (outputPath "." filing.config.output) = some ["out"] := by decide +kernel
  obtain rfl := Option.some.inj (hlead.symm.trans hout)
  obtain ⟨hcount, hsize⟩ := hfiles rfl (by decide +kernel)
  exact ⟨hmake, hassorted, hblank, ⟨outs, houts, hbytes hexact⟩, hcount, hsize hexact⟩

/-- A tensor that was put together without being made counts with the elements that its header
promises, although its file has fewer. -/
theorem short_tensor_counts_in_full :
    let short : Checkpoint := .ofList [("x", .ok ⟨"x", [2], [1]⟩)]
    let outs : List OutputTensor := [⟨"x", ⟨1, 1, 2⟩, [1]⟩]
    let after := blank.run (filing.convert short)
    filing.config.fault? = none ∧ after.1.result = .ok ⟨1, 0, 1, 20, 0⟩ ∧
      short.outputs filing.config.naming = .ok outs ∧
      (outs.map fun t => 12 + 4 * t.data.length).sum = 16 ∧
      ((after.2.filesIn ["out"]).map fun x => after.2.fileLength (x :: ["out"])).sum = 16 := by
  decide +kernel

end Disk

end FlatWeights
