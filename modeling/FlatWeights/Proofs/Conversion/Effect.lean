import FlatWeights.Proofs.Conversion.Outcome

/-!
The effect of a run that succeeds, on the whole tree. The files of the run are in the output
directory, each as the last output of its name asks; the directories on the way are there; nothing
is left of the staging directory; and everything else is as it was.

The path to the output directory may lead through the staging directory in it, as `.staging/a/../..`
does. Such a path leads nowhere any more while the staging directory is being removed, and the empty
directory remains.
-/

set_option autoImplicit false

namespace FlatWeights

open Emitter

namespace Disk

variable {d d₀ d₁ e : Disk} {base : Path} {buffer : Nat} {output : OutputSettings} {l k : Location}
  {outs : List OutputTensor} {naming : Naming} {checkpoint : Checkpoint} {next : Emitter}

/-! ## The tree at the end of a run -/

theorem Possible.clear_written (h : Possible base buffer output naming checkpoint l outs next d₁) :
    ∀ n ∈ next.written.toList, d₁.tree.find? (fileName n :: l) ≠ some .directory := by
  intro n hn
  obtain ⟨t, ht, rfl⟩ := (h.written n).1 hn
  exact h.clear t ht

/-- Outside of the staging directory a run ends with its files laid over the output directory as it
began. -/
theorem Possible.final_outside (h : Possible base buffer output naming checkpoint l outs next d₁)
    (hready : Ready base output l d₁ outs)
    (hpublished : Published base output l d₁ outs next.written.toList e)
    (hk : ¬ ".staging" :: l <:+ k) :
    (e.without (stagingPath base output)).tree.find? k =
      overlay l (lastFile? outs) d₁.tree.find? k := by
  rw [(hpublished.without hready h.clear_written).1.outside k hk, hpublished.outside hk,
    filesOf_written h.written]

/-- The tree after a run that has given some outputs to the emitter is the tree before the run, with
the directories on the way to the output directory and the files of the outputs. -/
structure Effect (p : Path) (l : Location) (outs : List OutputTensor) (d e : Disk) : Prop where
  files : ∀ t ∈ outs, ∃ last header, lastOutput? outs (fileName t.name) = some last ∧
    WeightFile.Header.ofDims? last.dims = some header ∧
    e.tree.find? (fileName t.name :: l) = some (.file (WeightFile.encode header last.data))
  passed : ∀ k ∈ d.visits p, ¬ ".staging" :: l <:+ k → e.tree.find? k = some .directory
  staged : ∀ k, ".staging" :: l <:+ k → k ≠ ".staging" :: l → e.tree.find? k = none
  staging : e.tree.find? (".staging" :: l) = none ∨
    e.tree.find? (".staging" :: l) = some .directory ∧
      ∃ k ∈ d.visits p, ".staging" :: l <:+ k ∧ k ≠ ".staging" :: l
  unchanged : ∀ k, ¬ ".staging" :: l <:+ k → k ∉ d.visits p →
    (∀ t ∈ outs, k ≠ fileName t.name :: l) → e.tree.find? k = d.tree.find? k

/-- Publishing and removing the staging area has the effect on the disk the run started from. -/
theorem effect_of_published (hbegun : Begun base output l d d₁)
    (h : Possible base buffer output naming checkpoint l outs next d₁)
    (hready : Ready base output l d₁ outs)
    (hpublished : Published base output l d₁ outs next.written.toList e) :
    Effect (outputPath base output) l outs d (e.without (stagingPath base output)) := by
  obtain ⟨hcleared, hself⟩ := hpublished.without hready h.clear_written
  -- outside of the staging directory the disk is the one before with the last outputs over it
  have hview : ∀ k, ¬ ".staging" :: l <:+ k → (e.without (stagingPath base output)).tree.find? k =
      overlay l (lastFile? outs) d₁.tree.find? k := fun k hk =>
    h.final_outside hready hpublished hk
  have hfree : ∀ x content, lastFile? outs x = some content →
      d₁.tree.find? (x :: l) ≠ some .directory := by
    intro x content hx
    obtain ⟨t, ht, rfl, -⟩ := exists_of_lastFile? hx
    exact h.clear t ht
  refine ⟨fun t ht => ?_, fun k hk hsuf => ?_, hcleared.below, ?_, fun k hsuf hk hfinal => ?_⟩
  · obtain ⟨last, hlast⟩ := exists_lastOutput? ht
    obtain ⟨content, hcontent⟩ :=
      Option.isSome_iff_exists.1 (hready.files last (exists_of_lastOutput? hlast).1)
    obtain ⟨header, hheader, rfl⟩ := Option.map_eq_some_iff.1 hcontent
    refine ⟨last, header, hlast, hheader, ?_⟩
    have hfile : lastFile? outs (fileName t.name) =
        some (WeightFile.encode header last.data) := by
      rw [lastFile?, hlast]
      exact hcontent
    rw [hview _ (file_not_in_staging t.name l), overlay_eq_file hfile]
  · rw [hview k hsuf, overlay_eq_directory_iff hfree]
    exact hbegun.passed k hk hsuf
  · refine hself.imp_right ?_
    rintro ⟨hdir, k, hk, hbelow⟩
    refine ⟨hdir, k, ?_, hbelow⟩
    have horigin := hpublished.origin
    rw [origin_staging hready.out, origin_staging hready.out] at horigin
    rw [visits, horigin] at hk
    exact WorkingDir.visits_of_fell hbegun.fell hk
  · rw [hview k hsuf, overlay_of_no_output hfinal]
    rcases hbegun.outside k hsuf with hsame | ⟨-, -, hmem⟩
    · exact hsame
    · exact absurd hmem hk

/-! ## Runs that succeed -/

/-- A run that succeeds has the effect that its outputs ask for and no other. -/
theorem perform_effect (hout : outputPath base output ≠ "") {report : ConversionReport}
    (h : (d.run (Conversion.perform (Storage.below base buffer) output naming
      checkpoint)).1.result = .ok report) :
    ∃ l outs next, d.lead? (outputPath base output) = some l ∧
      checkpoint.outputs naming = .ok outs ∧ Emitter.acceptAll? { output } outs = some next ∧
      Effect (outputPath base output) l outs d
        (d.run (Conversion.perform (Storage.below base buffer) output naming checkpoint)).2 := by
  obtain ⟨d₁, l, outs, next, hstart, hbegun, hpossible⟩ := possible_of_perform hout h
  obtain ⟨report', milestones, e, hpublished, hready, hrun⟩ :=
    perform_of_possible hout hstart hbegun hpossible
  refine ⟨l, outs, next, hbegun.lead, hpossible.outputs, hpossible.accepted, ?_⟩
  rw [hrun]
  exact effect_of_published hbegun hpossible hready hpublished

/-- A conversion that succeeds has the effect that its outputs ask for and no other. -/
theorem convert_effect {config : Config} {converter : Converter (StateM Disk)}
    (hmake : d₀.outcome (Converter.ofConfig config) = (.ok converter, d₁))
    {report : ConversionReport}
    (h : (d.run (converter.convert checkpoint)).1.result = .ok report) :
    ∃ l outs, d.lead? (outputPath "." config.output) = some l ∧
      checkpoint.outputs config.naming = .ok outs ∧
      Effect (outputPath "." config.output) l outs d (d.run (converter.convert checkpoint)).2 := by
  obtain ⟨-, rfl⟩ := converter_of_config hmake
  simp only [convert_converterOf] at h ⊢
  obtain ⟨l, outs, _, hlead, houts, -, heffect⟩ :=
    perform_effect (outputPath_ne_empty config.output) h
  exact ⟨l, outs, hlead, houts, heffect⟩

/-- A checkpoint with one tensor of one element. -/
def singleton : Checkpoint := .ofList [("x", .ok ⟨"x", [1], [1]⟩)]

/-- The converter that nothing was configured for. -/
def plain : Converter (StateM Disk) := converterOf {}

/-- One tensor converted into the working directory. -/
theorem convert_effect_singleton :
    blank.outcome (Converter.ofConfig {}) = (.ok plain, blank) ∧
      (blank.run (plain.convert singleton)).1.result = .ok ⟨1, 0, 1, 16, 0⟩ ∧
      ∃ l outs, blank.lead? (outputPath "." {}) = some l ∧ singleton.outputs {} = .ok outs ∧
        Effect (outputPath "." {}) l outs blank (blank.run (plain.convert singleton)).2 := by
  have hmake : blank.outcome (Converter.ofConfig {}) = (.ok plain, blank) :=
    outcome_ofConfig (by decide +kernel) (by decide +kernel)
  have hresult : (blank.run (plain.convert singleton)).1.result = .ok ⟨1, 0, 1, 16, 0⟩ := by
    decide +kernel
  have heffect := convert_effect (d := blank) hmake hresult
  exact ⟨hmake, hresult, heffect⟩

/-- The staging directory remains where the path to the output directory leads through it. -/
theorem staging_remains :
    let config : Config := { output := { dir := ".staging/a/../.." } }
    let after := blank.run ((converterOf config).convert singleton)
    config.fault? = none ∧ after.1.result.toOption.isSome ∧
      after.2.tree.find? [".staging"] = some .directory := by
  decide +kernel

end Disk

end FlatWeights
