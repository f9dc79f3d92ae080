import FlatWeights.Proofs.Conversion.Run

/-!
What becomes of a run. It succeeds exactly if it starts, all outputs are to be had, the emitter
accepts them, and no directory is in the way of a file, neither where it is staged nor where it ends
up (`Possible`). Nothing in that depends on what the output directory held otherwise.
-/

set_option autoImplicit false

namespace FlatWeights

open Emitter

namespace Disk

variable {d d₁ e : Disk} {base : Path} {buffer : Nat} {output : OutputSettings} {l : Location}
  {outs : List OutputTensor} {naming : Naming} {checkpoint : Checkpoint}

/-! ## The stages of a run -/

/-- A run starts, stages everything, and is committed; a failure after the start is followed by an
abort. -/
theorem run_perform (storage : Storage (StateM Disk)) (d : Disk) :
    d.run (Conversion.perform storage output naming checkpoint) =
      match d.outcome (start storage output) with
      | (.error stop, e) => (⟨.error stop, []⟩, e)
      | (.ok emitter, e) =>
        match e.run (Conversion.convertKeys storage naming checkpoint checkpoint.keys
            (Progress.start Source.exact checkpoint.keys) { emitter }) with
        | ((.error (.failed failure), run), e) =>
          (⟨.error (.failed failure), run.milestones.reverse⟩, (e.run (abort storage output)).2)
        | ((.error .overflow, run), e) => (⟨.error .overflow, run.milestones.reverse⟩, e)
        | ((.ok _, run), e) =>
          match e.emitted run.emitter (commit storage) with
          | ((.error (.failed failure), _), e) =>
            (⟨.error (.failed failure), run.milestones.reverse⟩, (e.run (abort storage output)).2)
          | ((.error .overflow, _), e) => (⟨.error .overflow, run.milestones.reverse⟩, e)
          | ((.ok _, _), e) => (⟨.ok run.report, run.milestones.reverse⟩, e) := by
  rw [Conversion.perform]
  simp only [run_bind, run_run]
  generalize d.outcome (start storage output) = started
  obtain ⟨result, e⟩ := started
  cases result with
  | error stop => rfl
  | ok emitter =>
    simp only [run_bind]
    generalize e.run (Conversion.convertKeys storage naming checkpoint checkpoint.keys
      (Progress.start Source.exact checkpoint.keys) { emitter }) = converted
    obtain ⟨⟨result, run⟩, e⟩ := converted
    cases result with
    | error stop =>
      cases stop with
      | failed failure => rfl
      | overflow => rfl
    | ok answer =>
      simp only [run_bind, emitted]
      generalize e.run ((commit storage).run.run run.emitter) = committed
      obtain ⟨⟨result, emitter⟩, e⟩ := committed
      cases result with
      | error stop =>
        cases stop with
        | failed failure => rfl
        | overflow => rfl
      | ok stats => rfl

/-! ## Runs that succeed -/

/-- Nothing is in the way of a run that has begun. -/
structure Possible (base : Path) (buffer : Nat) (output : OutputSettings) (naming : Naming)
    (checkpoint : Checkpoint) (l : Location) (outs : List OutputTensor) (next : Emitter)
    (d₁ : Disk) : Prop where
  outputs : checkpoint.outputs naming = .ok outs
  accepted : Emitter.acceptAll? { output } outs = some next
  fits : ∀ t ∈ outs, d₁.Fits base buffer output l t.name
  clear : ∀ t ∈ outs, d₁.tree.find? (fileName t.name :: l) ≠ some .directory

variable {next : Emitter}

/-- The names written are those of the outputs. -/
theorem mem_written_iff (h : Emitter.acceptAll? { output } outs = some next) (n : String) :
    n ∈ next.written.toList ↔ ∃ t ∈ outs, t.name = n := by
  rw [mem_written_of_acceptAll? h]
  exact or_iff_right (by simp [NameSet.toList_empty])

theorem Possible.written (h : Possible base buffer output naming checkpoint l outs next d₁)
    (n : String) : n ∈ next.written.toList ↔ ∃ t ∈ outs, t.name = n := mem_written_iff h.accepted n

/-- A run whose outputs are all accepted and fit comes to its commit with all of them staged. -/
theorem ready_of_accepted (hout : outputPath base output ≠ "") (hbegun : Begun base output l d d₁)
    (houts : checkpoint.outputs naming = .ok outs)
    (hnext : Emitter.acceptAll? { output } outs = some next)
    (hfits : ∀ t ∈ outs, d₁.Fits base buffer output l t.name) :
    ∃ run d₂, d₁.run (Conversion.convertKeys (Storage.below base buffer) naming checkpoint
      checkpoint.keys (Progress.start Source.exact checkpoint.keys) { emitter := { output } }) =
          ((.ok (), run), d₂) ∧
      run.emitter.output = output ∧ run.emitter.written = next.written ∧
      Staged base run.emitter.output l d₁ outs d₂ ∧ Ready base run.emitter.output l d₁ outs := by
  obtain ⟨run, d₂, hkeys, hbare, hstaged⟩ := convertKeys_of_accepted hout hbegun.staging
    hbegun.files (Progress.start Source.exact checkpoint.keys) { emitter := { output } }
    (staged_nil d₁) rfl houts hnext hfits
  rw [List.nil_append] at hstaged
  -- what the emitter has besides its counts is what accepting the outputs makes of it
  have houtput : run.emitter.output = output := by
    have hsame := acceptAll?_output hnext
    rw [← hbare] at hsame
    exact hsame
  have hwritten : run.emitter.bare.written = next.written := congrArg Emitter.written hbare
  refine ⟨run, d₂, hkeys, houtput, hwritten, ?_, ?_⟩
  · rwa [houtput]
  · rw [houtput]
    exact hstaged.ready hout hbegun.staging hbegun.files

/-- A run in whose way nothing is succeeds, and its files are in the output directory. -/
theorem perform_of_possible (hout : outputPath base output ≠ "")
    (hstart : d.outcome (start (Storage.below base buffer) output) = (.ok { output }, d₁))
    (hbegun : Begun base output l d d₁)
    (h : Possible base buffer output naming checkpoint l outs next d₁) :
    ∃ report milestones e, Published base output l d₁ outs next.written.toList e ∧
      Ready base output l d₁ outs ∧
      d.run (Conversion.perform (Storage.below base buffer) output naming checkpoint) =
        (⟨.ok report, milestones⟩, e.without (stagingPath base output)) := by
  obtain ⟨run, d₂, hkeys, houtput, hwritten, hstaged, hready⟩ :=
    ready_of_accepted hout hbegun h.outputs h.accepted h.fits
  have hnames := h.written
  rw [← hwritten] at hnames ⊢
  obtain ⟨e, hpublished, hcommit⟩ := commit_of_clear buffer hready hstaged hnames h.clear
  rw [houtput] at hready hpublished hcommit
  refine ⟨run.report, run.milestones.reverse, e, hpublished, hready, ?_⟩
  rw [run_perform, hstart]
  simp only [hkeys, hcommit]

/-! ## Runs that fail -/

/-- A run that stops before the commit discards what was staged, unless it stops for good. -/
theorem perform_of_stopped (hout : outputPath base output ≠ "")
    (hstart : d.outcome (start (Storage.below base buffer) output) = (.ok { output }, d₁))
      {stop : Stop}
    {run : Conversion} :
    d₁.run (Conversion.convertKeys (Storage.below base buffer) naming checkpoint
        checkpoint.keys (Progress.start Source.exact checkpoint.keys) { emitter := { output } }) =
          ((.error stop, run), e) →
      d.run (Conversion.perform (Storage.below base buffer) output naming checkpoint) =
        (⟨.error stop, run.milestones.reverse⟩, match stop with
          | .failed _ => e.without (stagingPath base output)
          | .overflow => e) := by
  intro hkeys
  rw [run_perform, hstart]
  simp only [hkeys]
  cases stop with
  | failed failure => simp only [run_abort hout]
  | overflow => rfl

/-- A run in which not everything is staged fails. -/
theorem perform_of_refused (hout : outputPath base output ≠ "")
    (hstart : d.outcome (start (Storage.below base buffer) output) = (.ok { output }, d₁))
    (hbegun : Begun base output l d d₁)
    (hno : ∀ outs next, checkpoint.outputs naming = .ok outs →
      Emitter.acceptAll? { output } outs = some next →
      ∃ t ∈ outs, ¬ d₁.Fits base buffer output l t.name) :
    ∃ stop milestones e, d.run
      (Conversion.perform (Storage.below base buffer) output naming checkpoint) =
        (⟨.error stop, milestones⟩, match stop with
          | .failed _ => e.without (stagingPath base output)
          | .overflow => e) ∧
      ((∃ done t rest, checkpoint.resolved naming = done ++ t :: rest ∧
          Halted base output l d₁ done t stop e) ∨
        checkpoint.outputs naming = .error stop ∧
          Staged base output l d₁ (checkpoint.resolved naming) e) := by
  obtain ⟨stop, run, e, hkeys, hleft⟩ := convertKeys_of_refused hout hbegun.staging
    hbegun.files (Progress.start Source.exact checkpoint.keys) { emitter := { output } }
    (staged_nil d₁) rfl hno
  simp only [List.nil_append] at hleft
  have hrun := perform_of_stopped hout hstart hkeys
  refine ⟨stop, run.milestones.reverse, e, ?_, hleft⟩
  cases stop with
  | failed failure => exact hrun
  | overflow => exact hrun

/-- A run in which everything is staged, but not everything can take its place, fails at the first
name in whose place a directory is. -/
theorem perform_of_blocked (hout : outputPath base output ≠ "")
    (hstart : d.outcome (start (Storage.below base buffer) output) = (.ok { output }, d₁))
    (hbegun : Begun base output l d d₁) (houts : checkpoint.outputs naming = .ok outs)
    (hnext : Emitter.acceptAll? { output } outs = some next)
    (hfits : ∀ t ∈ outs, d₁.Fits base buffer output l t.name)
    (hblocked : ∃ t ∈ outs, d₁.tree.find? (fileName t.name :: l) = some .directory) :
    ∃ milestones e front blocked back, next.written.toList = front ++ blocked :: back ∧
      d.run (Conversion.perform (Storage.below base buffer) output naming checkpoint) =
        (⟨.error (.failed (.write (base.join (stagedPath output blocked))
          (.renameTo (base.join (finalPath output blocked))))), milestones⟩,
          e.without (stagingPath base output)) ∧
      Published base output l d₁ outs front e ∧ Ready base output l d₁ outs ∧
      (∀ n ∈ front, d₁.tree.find? (fileName n :: l) ≠ some .directory) ∧
      d₁.tree.find? (fileName blocked :: l) = some .directory := by
  obtain ⟨run, d₂, hkeys, houtput, hwritten, hstaged, hready⟩ :=
    ready_of_accepted hout hbegun houts hnext hfits
  have hnames := mem_written_iff hnext
  rw [← hwritten] at hnames ⊢
  obtain ⟨t, ht, hdirectory⟩ := hblocked
  have hmem : t.name ∈ run.emitter.written.toList := (hnames t.name).2 ⟨t, ht, rfl⟩
  obtain ⟨front, blocked, back, hsplit, hfront, hblocked⟩ :=
    (clear_or_blocked d₁ l run.emitter.written.toList).resolve_left fun hclear =>
      hclear t.name hmem hdirectory
  obtain ⟨e, hpublished, hcommit⟩ :=
    commit_of_blocked buffer hready hstaged hnames hsplit hfront hblocked
  rw [houtput] at hready hpublished hcommit
  refine ⟨run.milestones.reverse, e, front, blocked, back, hsplit, ?_, hpublished, hready, hfront,
    hblocked⟩
  rw [run_perform, hstart]
  simp only [hkeys, hcommit, run_abort hout]

/-- Once a run has begun, nothing is in its way, or not everything can be staged, or a directory is
in the place of a file. -/
theorem possible_or_refused_or_blocked (base : Path) (buffer : Nat) (output : OutputSettings)
    (naming : Naming) (checkpoint : Checkpoint) (l : Location) (d₁ : Disk) :
    (∃ outs next, Possible base buffer output naming checkpoint l outs next d₁) ∨
      (∀ outs next, checkpoint.outputs naming = .ok outs →
        Emitter.acceptAll? { output } outs = some next →
        ∃ t ∈ outs, ¬ d₁.Fits base buffer output l t.name) ∨
      ∃ outs next, checkpoint.outputs naming = .ok outs ∧
        Emitter.acceptAll? { output } outs = some next ∧
        (∀ t ∈ outs, d₁.Fits base buffer output l t.name) ∧
        ∃ t ∈ outs, d₁.tree.find? (fileName t.name :: l) = some .directory := by
  by_cases hstaged : ∃ outs next, checkpoint.outputs naming = .ok outs ∧
      Emitter.acceptAll? { output } outs = some next ∧
        ∀ t ∈ outs, d₁.Fits base buffer output l t.name
  · obtain ⟨outs, next, houts, hnext, hfits⟩ := hstaged
    by_cases hblocked : ∃ t ∈ outs, d₁.tree.find? (fileName t.name :: l) = some .directory
    · exact .inr (.inr ⟨outs, next, houts, hnext, hfits, hblocked⟩)
    · exact .inl ⟨outs, next, houts, hnext, hfits, fun t ht hdirectory =>
        hblocked ⟨t, ht, hdirectory⟩⟩
  · refine .inr (.inl fun outs next houts hnext => ?_)
    by_contra hall
    exact hstaged ⟨outs, next, houts, hnext, fun t ht =>
      by_contra fun hfits => hall ⟨t, ht, hfits⟩⟩

/-- Nothing was in the way of a run that has succeeded. -/
theorem possible_of_perform (hout : outputPath base output ≠ "") {report : ConversionReport}
    (h : (d.run (Conversion.perform (Storage.below base buffer) output naming
      checkpoint)).1.result = .ok report) :
    ∃ d₁ l outs next, d.outcome (start (Storage.below base buffer) output) = (.ok { output }, d₁) ∧
      Begun base output l d d₁ ∧ Possible base buffer output naming checkpoint l outs next d₁ := by
  cases hstart : d.outcome (start (Storage.below base buffer) output) with
  | mk result d₁ =>
  cases result with
  | error stop =>
    rw [run_perform, hstart] at h
    exact absurd h (by simp)
  | ok emitter =>
  obtain ⟨rfl, l, hbegun⟩ := begun_of_start hout hstart
  -- in the other two cases the run would have failed
  rcases possible_or_refused_or_blocked base buffer output naming checkpoint l d₁ with
    ⟨outs, next, hpossible⟩ | hno | ⟨outs, next, houts, hnext, hfits, hblocked⟩
  · exact ⟨d₁, l, outs, next, rfl, hbegun, hpossible⟩
  · obtain ⟨stop, _, _, hrun, -⟩ := perform_of_refused hout hstart hbegun hno
    rw [hrun] at h
    exact absurd h (by simp)
  · obtain ⟨_, _, _, _, _, -, hrun, -⟩ :=
      perform_of_blocked hout hstart hbegun houts hnext hfits hblocked
    rw [hrun] at h
    exact absurd h (by simp)

/-! ## Converters -/

/-- The converter of a configuration writes below the working directory, through buffers of the
size that the configuration asks for. -/
def converterOf (config : Config) : Converter (StateM Disk) :=
  ⟨config, Storage.below "." config.storage.bufferSize⟩

/-- Converting runs over the storage with the configured buffer. -/
theorem convert_converterOf (config : Config) (checkpoint : Checkpoint) :
    (converterOf config).convert checkpoint =
      Conversion.perform (Storage.below "." config.storage.bufferSize) config.output config.naming
        checkpoint := rfl

/-- To open a storage gives the storage, whether its directory had to be made or not. -/
theorem storage_of_openBelow {p : Path} {size : Nat} {storage : Storage (StateM Disk)}
    (h : d.outcome (Storage.openBelow p size) = (.ok storage, e)) :
    storage = Storage.below p size := by
  have hopens : d.outcome (Storage.openBelow p size) = d.outcome (do
      (do if !(d.kind? p).isSome then
          Storage.require (FileSystem.makeDirAll p) (.write p .baseDirectory))
      return Storage.below p size) := by
    rw [Storage.openBelow, outcome_bind_ok (outcome_always d _), run_exists]
    split <;> rfl
  rw [hopens] at h
  obtain ⟨opened, e', -, hreturn⟩ := outcome_bind_eq_ok_iff.1 h
  exact (Except.ok.inj (Prod.mk.inj hreturn).1).symm

/-- A converter has the configuration that it was made from, which is valid, and writes below the
working directory. -/
theorem converter_of_config {config : Config} {converter : Converter (StateM Disk)}
    (h : d.outcome (Converter.ofConfig config) = (.ok converter, e)) :
    config.validate = .ok () ∧ converter = converterOf config := by
  rw [Converter.ofConfig, outcome_bind_eq_ok_iff] at h
  obtain ⟨answer, d', hconfig, hrest⟩ := h
  rw [outcome_mk] at hconfig
  obtain ⟨hvalid, rfl⟩ := Prod.mk.inj hconfig
  obtain ⟨storage, e', hopen, hreturned⟩ := outcome_bind_eq_ok_iff.1 hrest
  obtain ⟨hmade, rfl⟩ := Prod.mk.inj hreturned
  refine ⟨hvalid, (Except.ok.inj hmade).symm.trans ?_⟩
  rw [storage_of_openBelow hopen, converterOf]

/-- Where a configuration makes a converter, so does one that is as valid, with the same size of
buffers. -/
theorem outcome_ofConfig_congr {config config' : Config} {converter : Converter (StateM Disk)}
    (hvalid : config'.validate = config.validate)
    (hbuffer : config'.storage.bufferSize = config.storage.bufferSize)
    (h : d.outcome (Converter.ofConfig config) = (.ok converter, e)) :
    d.outcome (Converter.ofConfig config') = (.ok (converterOf config'), e) := by
  rw [Converter.ofConfig, outcome_bind_eq_ok_iff] at h ⊢
  obtain ⟨answer, d', hconfig, hrest⟩ := h
  obtain ⟨storage, e', hopen, hreturned⟩ := outcome_bind_eq_ok_iff.1 hrest
  obtain ⟨-, rfl⟩ := Prod.mk.inj hreturned
  obtain rfl := storage_of_openBelow hopen
  rw [← hbuffer] at hopen
  rw [hvalid]
  exact ⟨answer, d', hconfig, outcome_bind_eq_ok_iff.2 ⟨_, _, hopen, rfl⟩⟩

/-- A valid configuration makes a converter where there is a working directory. -/
theorem outcome_ofConfig {config : Config} (hvalid : config.fault? = none)
    (hhere : (d.kind? ".").isSome = true) :
    d.outcome (Converter.ofConfig config) = (.ok (converterOf config), d) := by
  have hconfig : d.outcome (ExceptT.mk (pure config.validate)) = (.ok (), d) := by
    rw [outcome_mk, Config.validate, hvalid]
  have hopen : d.outcome (Storage.openBelow "." config.storage.bufferSize) =
      (.ok (Storage.below "." config.storage.bufferSize), d) := by
    rw [Storage.openBelow, outcome_bind_ok (outcome_always d _), run_exists, hhere]
    rfl
  rw [Converter.ofConfig, outcome_bind_ok hconfig, outcome_bind_ok hopen]
  rfl

/-- The path to the output directory from the working directory is a path. -/
theorem outputPath_ne_empty (output : OutputSettings) : outputPath "." output ≠ "" := by
  intro h
  by_cases habs : Path.isAbsolute output.dir = true
  · rw [outputPath, Path.join, if_pos habs] at h
    rw [h] at habs
    exact absurd habs (by decide)
  · rw [outputPath, Path.join_eq (Bool.eq_false_iff.2 habs)] at h
    have hlist := congrArg String.toList h
    simp only [String.toList_append] at hlist
    exact absurd hlist (by simp)

/-- Opening a checkpoint changes nothing. -/
theorem outcome_openCheckpoint (converter : Converter (StateM Disk)) (path : Path) (d : Disk) :
    (d.outcome (converter.openCheckpoint path)).2 = d := by
  rw [Converter.openCheckpoint, CheckpointFile.open, outcome_bind_ok (outcome_always d _),
    run_open?]
  cases d.open? path with
  | none => cases converter.config.storage.useMmap <;> rfl
  | some opened =>
    cases opened with
    | file content => rfl
    | directory => cases converter.config.storage.useMmap <;> rfl

/-- A checkpoint file is opened and then converted. -/
theorem outcome_convertFile (converter : Converter (StateM Disk)) (path : Path) (d : Disk) :
    d.outcome (converter.convertFile path) =
      match (d.outcome (converter.openCheckpoint path)).1 with
      | .error stop => (.error stop, d)
      | .ok file => ((d.run (converter.convert file.checkpoint)).1.result,
          (d.run (converter.convert file.checkpoint)).2) := by
  have hsame := outcome_openCheckpoint converter path d
  rw [Converter.convertFile, outcome_bind]
  generalize d.outcome (converter.openCheckpoint path) = opened at hsame
  obtain ⟨result, e⟩ := opened
  obtain rfl : e = d := hsame
  cases result with
  | error stop => rfl
  | ok file => rfl

end Disk

end FlatWeights
