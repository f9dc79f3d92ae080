import FlatWeights.Proofs.Conversion.Effect

/-!
Running again after an interruption. A run that succeeds on one disk succeeds on every disk that an
interruption of it can leave, and both end with the same tree. Nothing that was left in the staging
directory comes through, since a run begins by removing it (`Begun.inside`), and what the output
directory holds of the run already is written over.

The path to the output directory may lead through the staging directory, and the working directory
may lie in it. What an interruption has removed of the way is made again, but a file that was put
there is not removed by the run, as it does not get that far (`file_bars_winding`).
-/

set_option autoImplicit false

namespace FlatWeights

open Emitter

namespace Disk

variable {d d₁ e e₁ f : Disk} {base : Path} {buffer : Nat} {output : OutputSettings} {l : Location}
  {outs : List OutputTensor} {naming : Naming} {checkpoint : Checkpoint} {next : Emitter}

/-- What an interruption of a run can leave. The working directory may have fallen out of the tree
with what was removed from the staging directory, but what it stands on is there. On the way to the
output directory some directories are there already; where it leads through the staging directory
some may be missing, but nothing else has taken their places. In the rest of the staging directory
anything may be left, or stand in its place. Some files of the run have taken their places, and
whatever is elsewhere is as it was. -/
structure Interrupted (base : Path) (output : OutputSettings) (naming : Naming)
    (checkpoint : Checkpoint) (d e : Disk) : Prop where
  limits : SameLimits d e
  -- what a run removes from the staging directory when it starts it may have removed in part
  here : ∀ l, d.lead? (outputPath base output) = some l →
    WorkingDir.FellFrom (".staging" :: l) d.here e.here ∧
      WorkingDir.FellFrom (".staging" :: l) e.here (d.prepared base output).here
  begins : e.tree.find? (e.origin (outputPath base output)).ground = some .directory
  way : ∀ k ∈ e.visits (outputPath base output), e.tree.find? k = d.tree.find? k ∨
    e.tree.find? k = some .directory ∨
      d.InStaging (outputPath base output) k ∧ e.tree.find? k = none
  outside : ∀ k, ¬ d.InStaging (outputPath base output) k →
    k ∉ d.visits (outputPath base output) → e.tree.find? k = d.tree.find? k ∨
      ∃ l outs, d.lead? (outputPath base output) = some l ∧ checkpoint.outputs naming = .ok outs ∧
        ∃ t ∈ outs, k = fileName t.name :: l ∧
          e.tree.find? k = (lastFile? outs (fileName t.name)).map Entry.file

/-- A run that has started starts again after an interruption. -/
theorem Interrupted.start (h : Interrupted base output naming checkpoint d e)
    (hout : outputPath base output ≠ "") {emitter : Emitter}
    (hstart : d.outcome (start (Storage.below base buffer) output) = (.ok emitter, d₁))
    (hlead : d.lead? (outputPath base output) = some l) :
    ∃ e₁, e.outcome (Emitter.start (Storage.below base buffer) output) = (.ok emitter, e₁) ∧
      Begun base output l d d₁ ∧ Begun base output l e e₁ ∧
      d₁.origin (outputPath base output) = e₁.origin (outputPath base output) := by
  obtain ⟨hfell, hfell'⟩ := h.here l hlead
  refine start_again hout hstart hlead h.limits (fellFrom_origin hfell _)
    (fellFrom_origin hfell' _) h.begins fun k hk => ?_
  refine (h.way k hk).imp_right (Or.imp_right fun ⟨⟨l', hl', hsuf⟩, hnone⟩ => ?_)
  obtain rfl : l = l' := Option.some.inj (hlead.symm.trans hl')
  exact ⟨hsuf, hnone⟩

/-- A run that was interrupted and its repetition begin alike in the staging directory. -/
theorem Begun.same_inside (hbegun : Begun base output l d d₁) (hbegun' : Begun base output l e e₁)
    (hout : outputPath base output ≠ "")
    (horigin : d₁.origin (outputPath base output) = e₁.origin (outputPath base output))
    {k : Location} (hk : ".staging" :: l <:+ k) : e₁.tree.find? k = d₁.tree.find? k := by
  have hvisits : e₁.visits (stagingPath base output) = d₁.visits (stagingPath base output) := by
    rw [visits, visits, origin_staging hout, origin_staging hout, horigin]
  rw [hbegun.inside k hk, hbegun'.inside k hk, hvisits]

/-- Outside of the staging directory the repetition finds what the run found, or a file of the
run. -/
theorem Interrupted.outside_begun (h : Interrupted base output naming checkpoint d e)
    (houts : checkpoint.outputs naming = .ok outs) (hbegun : Begun base output l d d₁)
    (hbegun' : Begun base output l e e₁) {k : Location} (hk : ¬ ".staging" :: l <:+ k) :
    e₁.tree.find? k = d₁.tree.find? k ∨
      ∃ t ∈ outs, k = fileName t.name :: l ∧
        e₁.tree.find? k = (lastFile? outs (fileName t.name)).map Entry.file := by
  have hfell := fellFrom_origin (h.here l hbegun.lead).1 (outputPath base output)
  -- on the way to the output directory stand directories in both runs
  by_cases hmem : k ∈ d.visits (outputPath base output)
  · left
    rw [hbegun.passed k hmem hk,
      hbegun'.passed k (WorkingDir.visits_of_not_fell hfell hbegun'.lead hmem hk) hk]
  · have hsame : d₁.tree.find? k = d.tree.find? k :=
      (hbegun.outside k hk).resolve_right fun hmade => hmem hmade.2.2
    have hsame' : e₁.tree.find? k = e.tree.find? k :=
      (hbegun'.outside k hk).resolve_right fun hmade =>
        hmem (WorkingDir.visits_of_fell hfell hmade.2.2)
    rw [hsame, hsame']
    refine (h.outside k ?_ hmem).imp_right ?_
    · rintro ⟨l', hl', hsuf⟩
      obtain rfl : l = l' := Option.some.inj (hbegun.lead.symm.trans hl')
      exact hk hsuf
    · rintro ⟨l', outs', hl', houts', hfile⟩
      obtain rfl : l = l' := Option.some.inj (hbegun.lead.symm.trans hl')
      obtain rfl : outs = outs' := Except.ok.inj (houts.symm.trans houts')
      exact hfile

/-- Nothing is in the way of the repetition of a run in whose way nothing was. -/
theorem Possible.again (hpossible : Possible base buffer output naming checkpoint l outs next d₁)
    (h : Interrupted base output naming checkpoint d e) (hout : outputPath base output ≠ "")
    (hbegun : Begun base output l d d₁) (hbegun' : Begun base output l e e₁)
    (horigin : d₁.origin (outputPath base output) = e₁.origin (outputPath base output)) :
    Possible base buffer output naming checkpoint l outs next e₁ := by
  have hlim : SameLimits d₁ e₁ := (hbegun.limits.symm.trans h.limits).trans hbegun'.limits
  refine ⟨hpossible.outputs, hpossible.accepted, fun t ht =>
    ⟨fun x hx => ?_, (hpossible.fits t ht).room⟩,
    fun t ht => ?_⟩
  · obtain ⟨htakes, hfree⟩ := (hpossible.fits t ht).place x hx
    refine ⟨hlim.takesEntry htakes, ?_⟩
    rwa [hbegun.same_inside hbegun' hout horigin (List.suffix_cons _ _)]
  · rcases h.outside_begun hpossible.outputs hbegun hbegun' (file_not_in_staging t.name l)
      with hsame | ⟨t', -, -, hfile⟩
    · rw [hsame]
      exact hpossible.clear t ht
    · rw [hfile]
      cases lastFile? outs (fileName t'.name) <;> simp

/-- Where a run and its repetition have written all their files, no difference is left outside of
the staging directory. -/
theorem Interrupted.same_outside (h : Interrupted base output naming checkpoint d e)
    (hpossible : Possible base buffer output naming checkpoint l outs next d₁)
    (hfiles : ∀ t ∈ outs, (t.file?).isSome)
    (hbegun : Begun base output l d d₁) (hbegun' : Begun base output l e e₁) {k : Location}
    (hk : ¬ ".staging" :: l <:+ k) : overlay l (lastFile? outs) e₁.tree.find? k =
      overlay l (lastFile? outs) d₁.tree.find? k := by
  rcases h.outside_begun hpossible.outputs hbegun hbegun' hk with hsame | ⟨t, ht, rfl, -⟩
  · exact overlay_congr hsame
  · obtain ⟨content, hcontent⟩ := exists_lastFile? hfiles ht
    rw [overlay_eq_file hcontent, overlay_eq_file hcontent]

/-- What remains of the staging directory is the same after a run and after its repetition. -/
theorem Published.same_inside {d₂ e₂ : Disk} {done : List String}
    (hready : Ready base output l d₁ outs) (hready' : Ready base output l e₁ outs)
    (hpublished : Published base output l d₁ outs done d₂)
    (hpublished' : Published base output l e₁ outs done e₂)
    (hclear : ∀ n ∈ done, d₁.tree.find? (fileName n :: l) ≠ some .directory)
    (hclear' : ∀ n ∈ done, e₁.tree.find? (fileName n :: l) ≠ some .directory)
    (hlim : SameLimits d₁ e₁)
    (horigin : d₁.origin (outputPath base output) = e₁.origin (outputPath base output))
    {k : Location} (hk : ".staging" :: l <:+ k) :
    (e₂.without (stagingPath base output)).tree.find? k =
      (d₂.without (stagingPath base output)).tree.find? k := by
  obtain ⟨hstaging, -⟩ := hpublished.dirAt hready hclear
  obtain ⟨hstaging', -⟩ := hpublished'.dirAt hready' hclear'
  have hlim₂ : SameLimits d₂ e₂ :=
    (hpublished.limits.symm.trans hlim).trans hpublished'.limits
  have horigin₂ : d₂.origin (stagingPath base output) = e₂.origin (stagingPath base output) := by
    rw [hpublished.origin, hpublished'.origin, origin_staging hready.out,
      origin_staging hready.out, horigin]
  exact (find?_without_staging hready.out hstaging hstaging' hlim₂ horigin₂ hk).symm

/-- A run that succeeds on a disk succeeds on any disk that an interruption of it leaves, and both
end with the same tree. -/
theorem perform_again (hout : outputPath base output ≠ "") {report : ConversionReport}
    (h : (d.run (Conversion.perform (Storage.below base buffer) output naming
      checkpoint)).1.result = .ok report)
    (hinterrupted : Interrupted base output naming checkpoint d e) :
    (∃ report',
      (e.run (Conversion.perform (Storage.below base buffer) output naming checkpoint)).1.result =
        .ok report') ∧
      FileTree.Same
        (e.run (Conversion.perform (Storage.below base buffer) output naming checkpoint)).2.tree
        (d.run (Conversion.perform (Storage.below base buffer) output naming
          checkpoint)).2.tree := by
  obtain ⟨d₁, l, outs, next, hstart, hfirst, hpossible⟩ := possible_of_perform hout h
  obtain ⟨e₁, hstart', hbegun, hbegun', horigin⟩ := hinterrupted.start hout hstart hfirst.lead
  have hpossible' := hpossible.again hinterrupted hout hbegun hbegun' horigin
  have hlim : SameLimits d₁ e₁ :=
    (hbegun.limits.symm.trans hinterrupted.limits).trans hbegun'.limits
  obtain ⟨_, _, d₂, hpublished, hready, hrun⟩ :=
    perform_of_possible hout hstart hbegun hpossible
  obtain ⟨report', _, e₂, hpublished', hready', hrun'⟩ :=
    perform_of_possible hout hstart' hbegun' hpossible'
  rw [hrun, hrun']
  refine ⟨⟨report', rfl⟩, fun k => ?_⟩
  -- the staging directory is removed by both runs, and elsewhere there are the same files
  by_cases hk : ".staging" :: l <:+ k
  · exact Published.same_inside hready hready' hpublished hpublished' hpossible.clear_written
      hpossible'.clear_written hlim horigin hk
  · change (e₂.without (stagingPath base output)).tree.find? k =
      (d₂.without (stagingPath base output)).tree.find? k
    rw [hpossible.final_outside hready hpublished hk,
      hpossible'.final_outside hready' hpublished' hk]
    exact hinterrupted.same_outside hpossible hready.files hbegun hbegun' hk

/-- A converter that has succeeded on a disk succeeds on any disk that an interruption of its run
leaves, with the same tree in the end. -/
theorem convert_again {config : Config} {converter : Converter (StateM Disk)}
    (hmake : d₁.outcome (Converter.ofConfig config) = (.ok converter, e₁))
    {report : ConversionReport}
    (h : (d.run (converter.convert checkpoint)).1.result = .ok report)
    (hinterrupted : Interrupted "." config.output config.naming checkpoint d e) :
    (∃ report', (e.run (converter.convert checkpoint)).1.result = .ok report') ∧
      FileTree.Same (e.run (converter.convert checkpoint)).2.tree
        (d.run (converter.convert checkpoint)).2.tree := by
  obtain ⟨-, rfl⟩ := converter_of_config hmake
  simp only [convert_converterOf] at h ⊢
  exact perform_again (outputPath_ne_empty config.output) h hinterrupted

/-! ### A path that leads through its own staging directory -/

/-- The converter whose path to the working directory leads through the staging directory in it. -/
def winding : Converter (StateM Disk) := converterOf { output := { dir := ".staging/a/../.." } }

/-- A directory below the one where the staging directory goes. -/
def entered : Disk :=
  { blank with
    tree := (FileTree.empty.insert [".staging"] .directory).insert ["a", ".staging"] .directory }

/-- The file of the one tensor, in place, and a file of no use in the staging directory, in which
there is no other directory any more. -/
def halfway : Disk :=
  { blank with
    tree := ((FileTree.empty.insert ["x.bin"] (.file
      [1, 0, 0, 0, 1, 0, 0, 0, 1, 0, 0, 0, 1, 0, 0, 0])).insert [".staging"] .directory).insert
        ["x.bin", ".staging"] (.file [7]) }

/-- Outside the staging area nothing is on the disk the run starts from. -/
theorem find?_entered {k : Location} (hk : ¬ [".staging"] <:+ k) :
    entered.tree.find? k = FileTree.empty.find? k := by
  rw [entered, FileTree.find?_insert_eq_update (by simp) (by decide +kernel) (by decide +kernel),
    FileTree.find?_insert_eq_update (by simp) (by decide +kernel) (by decide +kernel),
    Function.update_of_ne, Function.update_of_ne]
  · rintro rfl
    exact hk (List.suffix_refl _)
  · rintro rfl
    exact hk (List.suffix_cons _ _)

/-- Outside the staging area the halted run has left its one file. -/
theorem find?_halfway {k : Location} (hk : ¬ [".staging"] <:+ k) (hx : k ≠ ["x.bin"]) :
    halfway.tree.find? k = FileTree.empty.find? k := by
  rw [halfway, FileTree.find?_insert_eq_update (by simp) (by decide +kernel) (by decide +kernel),
    FileTree.find?_insert_eq_update (by simp) (by decide +kernel) (by decide +kernel),
    FileTree.find?_insert_eq_update (by simp) (by decide +kernel) (by decide +kernel),
    Function.update_of_ne, Function.update_of_ne, Function.update_of_ne hx]
  · rintro rfl
    exact hk (List.suffix_refl _)
  · rintro rfl
    exact hk (List.suffix_cons _ _)

/-- A run into `.staging/a/../..` is halted once its file is published and `.staging/a` is gone. -/
theorem interrupted_halfway : Interrupted "." winding.config.output winding.config.naming
    singleton entered halfway := by
  have hlead : entered.lead? (outputPath "." winding.config.output) = some [] := by
    decide +kernel
  have hdirs : ∀ k ∈ entered.visits (outputPath "." winding.config.output),
      k ≠ ["a", ".staging"] → halfway.tree.find? k = some .directory := by decide +kernel
  refine ⟨⟨rfl, rfl⟩, fun l _ => ⟨.refl _ _, .inl ?_⟩, by decide +kernel, fun k hk => ?_,
    fun k hk _ => ?_⟩
  · decide +kernel
  · by_cases ha : k = ["a", ".staging"]
    · subst ha
      exact .inr (.inr ⟨⟨[], hlead, List.suffix_cons _ _⟩, by decide +kernel⟩)
    · exact .inr (.inl (hdirs k hk ha))
  · have hsuf : ¬ [".staging"] <:+ k := fun hsuf => hk ⟨[], hlead, hsuf⟩
    by_cases hx : k = ["x.bin"]
    · refine .inr ⟨[], [⟨"x", ⟨1, 1, 1⟩, [1]⟩], hlead, by decide +kernel, _,
        List.mem_singleton_self _, hx, ?_⟩
      rw [hx]
      decide +kernel
    · exact .inl ((find?_halfway hsuf hx).trans (find?_entered hsuf).symm)

/-- The run after it makes `.staging/a` anew on its way. -/
theorem convert_again_halfway :
    blank.outcome (Converter.ofConfig winding.config) = (.ok winding, blank) ∧
      (entered.run (winding.convert singleton)).1.result = .ok ⟨1, 0, 1, 16, 0⟩ ∧
      Interrupted "." winding.config.output winding.config.naming singleton
        entered halfway ∧
      (∃ report', (halfway.run (winding.convert singleton)).1.result = .ok report') ∧
      FileTree.Same (halfway.run (winding.convert singleton)).2.tree
        (entered.run (winding.convert singleton)).2.tree := by
  have hmake : blank.outcome (Converter.ofConfig winding.config) = (.ok winding, blank) :=
    outcome_ofConfig (by decide +kernel) (by decide +kernel)
  have hresult : (entered.run (winding.convert singleton)).1.result =
      .ok ⟨1, 0, 1, 16, 0⟩ := by decide +kernel
  have hagain := convert_again (d := entered) hmake hresult interrupted_halfway
  exact ⟨hmake, hresult, interrupted_halfway, hagain⟩

/-- A file in place of the staging directory is in the way of a path that leads through it. -/
theorem file_bars_winding :
    let barred : Disk := { blank with tree := FileTree.empty.insert [".staging"] (.file [7]) }
    winding.config.fault? = none ∧
      (blank.run (winding.convert singleton)).1.result = .ok ⟨1, 0, 1, 16, 0⟩ ∧
      (barred.run (winding.convert singleton)).1.result =
        .error (.failed (.write "./.staging/a/../.." .createDirectories)) := by
  decide +kernel

end Disk

end FlatWeights
