import FlatWeights.Proofs.Conversion.Effect
import FlatWeights.Proofs.Conversion.Recovery
import FlatWeights.Proofs.Conversion.Report

/-!
Running again after a run that succeeded. The second run begins where the first one began, but that
the files of the first one are in their places (`start_rerun`); it lays the same files over them, so
that nothing changes (`overlay_overlay`), and its report differs in one count alone: every name that
it writes is there already (`perform_rerun`).

The staging directory makes this delicate. The first run has removed it, and if the path to the
output directory leads through it, or the working directory lay in it, the path to it may be cut by
then. What the second run needs of it is made again, as it was for the first one.
-/

set_option autoImplicit false

namespace FlatWeights

open Emitter

namespace Disk

variable {d d₀ d₁ e e₁ : Disk} {base : Path} {buffer : Nat} {output : OutputSettings}
  {l k : Location} {outs : List OutputTensor} {naming : Naming} {checkpoint : Checkpoint}
  {next : Emitter}

/-! ## What the second run begins with -/

/-- Nothing is made outside of the staging directory where a run begins once another one has ended:
the way to the output directory is there. -/
theorem Begun.outside_rerun (hbegun : Begun base output l (d.without (stagingPath base output)) e₁)
    (hout : outputPath base output ≠ "")
    (hstaging : d.DirAt (stagingPath base output) (".staging" :: l))
    (hk : ¬ ".staging" :: l <:+ k) :
    e₁.tree.find? k = (d.without (stagingPath base output)).tree.find? k := by
  have hopen := (hstaging.out hout).1
  have hcleared := (hstaging.cleared_staging hout).1
  -- what is made on the way was missing before, and the run before has left nothing of it out
  rcases hbegun.outside k hk with hsame | ⟨hnone, -, hmem⟩
  · exact hsame
  · rw [hcleared.outside k hk,
      hopen.directory (WorkingDir.visits_of_fell (hcleared.origin _) hmem)] at hnone
    exact absurd hnone (by simp)

/-- A run begins with the files of the one before in their places. -/
theorem Possible.rerun_outside (h : Possible base buffer output naming checkpoint l outs next d₁)
    (hready : Ready base output l d₁ outs)
    (hpublished : Published base output l d₁ outs next.written.toList e)
    (hbegun : Begun base output l (e.without (stagingPath base output)) e₁)
    (hk : ¬ ".staging" :: l <:+ k) :
    e₁.tree.find? k = overlay l (lastFile? outs) d₁.tree.find? k := by
  rw [hbegun.outside_rerun hready.out (hpublished.dirAt hready h.clear_written).1 hk,
    h.final_outside hready hpublished hk]

theorem Possible.rerun_file (h : Possible base buffer output naming checkpoint l outs next d₁)
    (hready : Ready base output l d₁ outs)
    (hpublished : Published base output l d₁ outs next.written.toList e)
    (hbegun : Begun base output l (e.without (stagingPath base output)) e₁) {t : OutputTensor}
    (ht : t ∈ outs) : ∃ content, e₁.tree.find? (fileName t.name :: l) = some (.file content) := by
  obtain ⟨content, hcontent⟩ := exists_lastFile? hready.files ht
  refine ⟨content, ?_⟩
  rw [h.rerun_outside hready hpublished hbegun (file_not_in_staging t.name l),
    overlay_eq_file hcontent]

/-- Nothing is in the way of a run that has succeeded before. -/
theorem Possible.rerun (h : Possible base buffer output naming checkpoint l outs next d₁)
    (hready : Ready base output l d₁ outs)
    (hpublished : Published base output l d₁ outs next.written.toList e)
    (hfirst : Begun base output l d d₁)
    (hbegun : Begun base output l (e.without (stagingPath base output)) e₁)
    (hlim : SameLimits d₁ e₁)
    (horigin : d₁.origin (outputPath base output) = e₁.origin (outputPath base output)) :
    Possible base buffer output naming checkpoint l outs next e₁ where
  outputs := h.outputs
  accepted := h.accepted
  fits t ht := by
    refine ⟨fun x hx => ?_, (h.fits t ht).room⟩
    obtain ⟨htakes, hfree⟩ := (h.fits t ht).place x hx
    refine ⟨hlim.takesEntry htakes, ?_⟩
    rwa [hfirst.same_inside hbegun hready.out horigin (List.suffix_cons _ _)]
  clear t ht := by
    obtain ⟨content, hfile⟩ := h.rerun_file hready hpublished hbegun ht
    simp [hfile]

/-- The output directory has all the names that the run before has written. -/
theorem Possible.rerun_holds (h : Possible base buffer output naming checkpoint l outs next d₁)
    (hready : Ready base output l d₁ outs)
    (hpublished : Published base output l d₁ outs next.written.toList e)
    (hbegun : Begun base output l (e.without (stagingPath base output)) e₁)
    (hlim : SameLimits d₁ e₁) {n : String} (hn : n ∈ next.written.toList) :
    e₁.holds (Storage.below base buffer) (finalPath output n) = true := by
  obtain ⟨t, ht, rfl⟩ := (h.written n).1 hn
  obtain ⟨content, hfile⟩ := h.rerun_file hready hpublished hbegun ht
  have hname := hready.names t ht
  have htakes := (hlim.takesEntry (hready.places t ht).file.1).out hname
  rw [(hbegun.out hready.out).1.holds_eq hname htakes, hfile]
  rfl

/-! ## The second run -/

/-- **Running again changes nothing.** Once a run has succeeded, it succeeds again, with the same
tree in the end and the same report, but that all names it writes count as overwritten. -/
theorem perform_rerun (hout : outputPath base output ≠ "") {report : ConversionReport}
    (h : (d.run (Conversion.perform (Storage.below base buffer) output naming
      checkpoint)).1.result = .ok report) :
    ∃ outs, checkpoint.outputs naming = .ok outs ∧
      let after := (d.run (Conversion.perform (Storage.below base buffer) output naming
        checkpoint)).2
      let again := after.run
        (Conversion.perform (Storage.below base buffer) output naming checkpoint)
      again.1.result =
          .ok { report with overwritten := (outs.map (·.name)).dedup.length } ∧
        FileTree.Same again.2.tree after.tree := by
  obtain ⟨d₁, l, outs, next, hstart, hbegun, hpossible⟩ := possible_of_perform hout h
  obtain ⟨report', _, e, hpublished, hready, hrun⟩ :=
    perform_of_possible hout hstart hbegun hpossible
  have hreport := report_of_possible hout hstart hbegun hpossible h
  refine ⟨outs, hpossible.outputs, ?_⟩
  rw [hrun]
  simp only
  -- the second run begins where the first one did
  have horigin₂ : e.origin (outputPath base output) = d₁.origin (outputPath base output) := by
    have hsame := hpublished.origin
    rwa [origin_staging hout, origin_staging hout] at hsame
  obtain ⟨e₁, hstart', hbegun', horigin⟩ := start_rerun hout hstart hbegun
    (hpublished.dirAt hready hpossible.clear_written).1 hpublished.limits horigin₂
  have hlim : SameLimits d₁ e₁ :=
    (hpublished.limits.trans (sameLimits_without e _)).trans hbegun'.limits
  have hpossible' := hpossible.rerun hready hpublished hbegun hbegun' hlim horigin
  obtain ⟨report'', _, e₂, hpublished', hready', hrun'⟩ :=
    perform_of_possible hout hstart' hbegun' hpossible'
  have hreport' := report_of_possible hout hstart' hbegun' hpossible' (by rw [hrun'])
  have hall : next.written.toList.countP (fun n =>
      e₁.holds (Storage.below base buffer) (finalPath output n)) = next.written.toList.length :=
    List.countP_eq_length.2 fun n hn => hpossible.rerun_holds hready hpublished hbegun' hlim hn
  -- only the count of the names that are there already can differ, and now that is all of them
  rw [hrun']
  refine ⟨?_, fun k => ?_⟩
  · rw [hreport', hreport, hall, hpossible.written_perm.length_eq]
  · by_cases hk : ".staging" :: l <:+ k
    · exact Published.same_inside hready hready' hpublished hpublished' hpossible.clear_written
        hpossible'.clear_written hlim horigin hk
    · simp only
      rw [hpossible'.final_outside hready' hpublished' hk,
        hpossible.final_outside hready hpublished hk,
        overlay_congr (hpossible.rerun_outside hready hpublished hbegun' hk), overlay_overlay]

/-- Once a conversion has succeeded it succeeds again, with the same tree in the end and the same
report, but that all names it writes count as overwritten. -/
theorem convert_rerun {config : Config} {converter : Converter (StateM Disk)}
    (hmake : d₀.outcome (Converter.ofConfig config) = (.ok converter, d₁))
    {report : ConversionReport}
    (h : (d.run (converter.convert checkpoint)).1.result = .ok report) :
    ∃ outs, checkpoint.outputs config.naming = .ok outs ∧
      let after := (d.run (converter.convert checkpoint)).2
      let again := after.run (converter.convert checkpoint)
      again.1.result =
          .ok { report with overwritten := (outs.map (·.name)).dedup.length } ∧
        FileTree.Same again.2.tree after.tree := by
  obtain ⟨-, rfl⟩ := converter_of_config hmake
  simp only [convert_converterOf] at h ⊢
  exact perform_rerun (outputPath_ne_empty config.output) h

/-- Two tensors that go by one name once what stands before the first one is taken away. -/
def namesakes : Checkpoint := .ofList [("p.x", .ok ⟨"p.x", [1], [1]⟩), ("x", .ok ⟨"x", [1], [2]⟩)]

/-- A converter that lets the last one of a name stand, and whose way to the output directory leads
through the staging directory. -/
def roundabout : Converter (StateM Disk) :=
  converterOf
    { output := { dir := ".staging/a/../..", onCollision := .warn }
      naming := { strip := some "p." } }

/-- Two tensors of one name, with a warning: the second run counts one file overwritten by the first
run and one by itself. -/
theorem convert_rerun_namesakes :
    blank.outcome (Converter.ofConfig roundabout.config) = (.ok roundabout, blank) ∧
      (blank.run (roundabout.convert namesakes)).1.result = .ok ⟨2, 0, 2, 32, 0⟩ ∧
      ∃ outs, namesakes.outputs roundabout.config.naming = .ok outs ∧
        let after := (blank.run (roundabout.convert namesakes)).2
        let again := after.run (roundabout.convert namesakes)
        again.1.result = .ok ⟨2, 0, 2, 32, (outs.map (·.name)).dedup.length⟩ ∧
          FileTree.Same again.2.tree after.tree := by
  have hmake : blank.outcome (Converter.ofConfig roundabout.config) = (.ok roundabout, blank) :=
    outcome_ofConfig (by decide +kernel) (by decide +kernel)
  have hresult : (blank.run (roundabout.convert namesakes)).1.result = .ok ⟨2, 0, 2, 32, 0⟩ := by
    decide +kernel
  have hrerun := convert_rerun (d := blank) hmake hresult
  exact ⟨hmake, hresult, hrerun⟩

end Disk

end FlatWeights
