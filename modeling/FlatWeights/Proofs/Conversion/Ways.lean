import FlatWeights.Proofs.Conversion.Atomicity
import FlatWeights.Proofs.Conversion.Report

/-!
The two ways to write a file: under a name of its own first, or right under its name. Two runs that
differ in nothing else go in lockstep. After every output their emitters are the same but for the
way, and each disk has the same files staged, although not by the same requests (`Together`); every
part of a run keeps it so (`InStep`). The two end with the same outcome and the same tree
(`perform_either_way`).

The ways do not ask the same of the disk, however. An atomic write needs a longer name than the file
has in the end, and it comes to its place by a move. Where the disk refuses the name, or a directory
on the way to the output directory stands at one of the two places, one run fails and the other does
not, or not by the same request. `HasRoom` and `Crosses` say when that is. Where a run stops because
there is no buffer to fill a file through, the file is left behind, under a name that depends on the
way (`Unbuffered`).
-/

set_option autoImplicit false

namespace FlatWeights

open Emitter

/-! ## Settings with another way to write -/

/-- The settings with a way to write. -/
def OutputSettings.writing (output : OutputSettings) (atomic : Bool) : OutputSettings :=
  { output with atomicWrites := atomic }

/-- The configuration with a way to write. -/
def Config.writing (config : Config) (atomic : Bool) : Config :=
  { config with output := config.output.writing atomic }

/-- The emitter with a way to write. -/
def Emitter.writing (emitter : Emitter) (atomic : Bool) : Emitter :=
  { emitter with output := emitter.output.writing atomic }

/-- The run with a way to write. -/
def Conversion.writing (run : Conversion) (atomic : Bool) : Conversion :=
  { run with emitter := run.emitter.writing atomic }

/-- What an emitter records does not depend on how files are written. -/
theorem Emitter.recorded_writing {α : Type} (emitter : Emitter) (atomic : Bool)
    (header : WeightFile.Header) (answer : α) : (emitter.writing atomic).recorded header answer =
      ((emitter.recorded header answer).1,
        (emitter.recorded header answer).2.writing atomic) := by
  have htotal : (emitter.writing atomic).total? header = emitter.total? header := rfl
  rw [recorded, recorded, htotal]
  cases emitter.total? header with
  | none => rfl
  | some total => rfl

namespace Disk

variable {d d₁ e : Disk} {base : Path} {buffer : Nat} {output : OutputSettings} {l : Location}
  {name : String} {atomic : Bool} {emitter : Emitter} {t : OutputTensor}
  {outs later : List OutputTensor} {naming : Naming} {checkpoint : Checkpoint}

/-! ## What both ways ask of a disk -/

/-- The limits of the file system leave room for the name that an atomic write needs first, and for
the path of that name. -/
def HasRoom (d : Disk) (base : Path) (output : OutputSettings) (name : String) : Prop :=
  d.longestName.all ((tempName name).utf8ByteSize ≤ ·) ∧
    d.longestPath.all ((base.join (tempPath output name)).utf8ByteSize ≤ ·)

/-- The path to the output directory leads through a place that a file has in the staging
directory. -/
def Crosses (d : Disk) (base : Path) (output : OutputSettings) (name : String) : Prop :=
  ∃ l x, d.lead? (outputPath base output) = some l ∧ (x = tempName name ∨ x = fileName name) ∧
    x :: ".staging" :: l ∈ d.visits (outputPath base output)

/-- Without limits there is room for every name. -/
theorem hasRoom_of_unlimited (hnames : d.longestName = none) (hpaths : d.longestPath = none)
    (base : Path) (output : OutputSettings) (name : String) : d.HasRoom base output name := by
  rw [HasRoom, hnames, hpaths]
  exact ⟨rfl, rfl⟩

/-- Where there is room for it, the staging directory takes a name that files may have. -/
theorem HasRoom.takesEntry (h : d.HasRoom base output name) (hname : validOutputName name = true)
    (hpath : d.takesPath (stagingPath base output) = true) :
    d.TakesEntry (stagingPath base output) (tempName name) := by
  have hnull : '\x00' ∉ (tempName name).toList := by
    rw [toList_tempName]
    simp [notMem_of_valid (c := '\x00') (by decide) hname]
  refine ⟨isText_iff.2 ⟨?_, ?_⟩, isText_iff.2 ⟨h.1, hnull⟩⟩
  · rw [← join_tempPath]
    exact h.2
  · rw [Path.mem_join_iff (isName_tempName hname).not_isAbsolute (by decide), not_or]
    exact ⟨(isText_iff.1 hpath).2, hnull⟩

/-- There is a place for a file, whichever way it is written, where there is room for it and its
places are not crossed. -/
theorem Begun.hasPlace (hbegun : Begun base output l d d₁) (hout : outputPath base output ≠ "")
    (hname : validOutputName name = true) (hroom : d.HasRoom base output name)
    (hfree : ¬ d.Crosses base output name) (atomic : Bool) :
    d₁.HasPlace base (output.writing atomic) l name := by
  have hpath : d.takesPath (stagingPath base output) = true := by
    rw [hbegun.limits.takesPath_eq]
    exact ((locate_eq_ok_iff hbegun.staging.ne_empty).1 hbegun.staging.found).1
  have htemp : d₁.TakesEntry (stagingPath base output) (tempName name) :=
    hbegun.limits.takesEntry (hroom.takesEntry hname hpath)
  intro x hx
  have hplace : x = tempName name ∨ x = fileName name := by
    rw [stagingNames] at hx
    split at hx
    · simpa using hx
    · exact .inr (by simpa using hx)
  constructor
  · rcases hplace with rfl | rfl
    · exact htemp
    · exact htemp.file hname
  · intro hdirectory
    -- the staging directory is a new one, so a directory in it was made on the way to it
    have hmem := hbegun.mem_visits_of_inside hout (List.suffix_cons _ _) (List.cons_ne_self _ _)
      hdirectory
    exact hfree ⟨l, x, hbegun.lead, hplace, WorkingDir.visits_of_fell hbegun.fell hmem⟩

/-! ## Two runs -/

/-- **Two runs that are together.** The emitter of the first one has staged some outputs on its
disk; on the other disk the same outputs are staged by an emitter that is the same but for the way
it writes. -/
structure Together (base : Path) (output : OutputSettings) (atomic : Bool) (l : Location)
    (d₁ : Disk) (outs : List OutputTensor) (emitter : Emitter) (d e : Disk) : Prop where
  settings : emitter.output = output
  written : ∀ n, n ∈ emitter.written.toList ↔ ∃ t ∈ outs, t.name = n
  staged : Staged base output l d₁ outs d
  other : Staged base (output.writing atomic) l d₁ outs e

/-- There was no buffer to write a file through. What is left of the file is under the name that it
was to have first, which is where the two ways part. -/
def Unbuffered (buffer : Nat) {α : Type} (answer : Except Stop α) : Prop :=
  answer = .error .overflow ∧ Size.bufferLimit ≤ buffer

/-- A program keeps two runs together: it gives both the same answer, and unless that is for want of
a buffer they can go on. -/
def InStep (base : Path) (buffer : Nat) (output : OutputSettings) (atomic : Bool) (l : Location)
    (d₁ : Disk) {α : Type} (x : Emit (StateM Disk) α) : Prop :=
  ∀ ⦃outs emitter d e⦄, Together base output atomic l d₁ outs emitter d e →
    ∃ answer next d' e' outs', d.emitted emitter x = ((answer, next), d') ∧
      e.emitted (emitter.writing atomic) x = ((answer, next.writing atomic), e') ∧
      (Together base output atomic l d₁ outs' next d' e' ∨ Unbuffered buffer answer)

/-- Before the first output the two ways are together. -/
theorem together_nil (base : Path) (output : OutputSettings) (atomic : Bool) (l : Location)
    (d₁ : Disk) : Together base output atomic l d₁ [] { output } d₁ d₁ :=
  ⟨rfl, by simp [NameSet.toList_empty], staged_nil d₁, staged_nil d₁⟩

/-- An answer leaves the two ways as they are. -/
theorem inStep_pure {α : Type} (a : α) :
    InStep base buffer output atomic l d₁ (pure a : Emit (StateM Disk) α) := by
  intro outs emitter d e h
  exact ⟨.ok a, emitter, d, e, outs, rfl, rfl, .inl h⟩

/-- Two calls that keep in step one after the other keep in step. -/
theorem InStep.bind {α β : Type} {x : Emit (StateM Disk) α} {f : α → Emit (StateM Disk) β}
    (hx : InStep base buffer output atomic l d₁ x)
    (hf : ∀ a, InStep base buffer output atomic l d₁ (f a)) :
    InStep base buffer output atomic l d₁ (x >>= f) := by
  intro outs emitter d e h
  obtain ⟨answer, next, d', e', outs', hfirst, hother, hnext⟩ := hx h
  cases answer with
  | error stop =>
    refine ⟨.error stop, next, d', e', outs', emitted_bind_error hfirst f,
      emitted_bind_error hother f, hnext.imp_right ?_⟩
    rintro ⟨hover, hbuffer⟩
    exact ⟨congrArg Except.error (Except.error.inj hover), hbuffer⟩
  | ok a =>
    rw [emitted_bind_ok hfirst, emitted_bind_ok hother]
    exact hf a (hnext.resolve_right fun hover => by simp [Unbuffered] at hover)

/-- To which name the noting refers, and whether the output directory has it, does not depend on the
way to write. -/
theorem noting_writing {storage : Storage (StateM Disk)}
    (hholds : e.holds storage (finalPath emitter.output name) =
      d.holds storage (finalPath emitter.output name)) (atomic : Bool) :
    e.noting storage (emitter.writing atomic) name =
      (d.noting storage emitter name).writing atomic := by
  have hpath : finalPath (emitter.writing atomic).output name = finalPath emitter.output name := rfl
  have hwritten : (emitter.writing atomic).written = emitter.written := rfl
  rw [noting, noting, hpath, hwritten, hholds]
  split <;> rfl

section Run

variable (hout : outputPath base output ≠ "")
  (h₁ : d₁.DirAt (stagingPath base output) (".staging" :: l))
  (hinside : ∀ x content, d₁.tree.find? (x :: ".staging" :: l) ≠ some (.file content))

include hout h₁ hinside

/-- **One tensor keeps two runs together** if there is a place for its file either way. -/
theorem inStep_emit (hplaces : validOutputName t.name = true →
      ∀ atomic, d₁.HasPlace base (output.writing atomic) l t.name) :
    InStep base buffer output atomic l d₁ (emit (Storage.below base buffer) t) := by
  intro outs emitter d e h
  have hsame : (emitter.writing atomic).objection? t = emitter.objection? t := rfl
  cases hobjection : emitter.objection? t with
  | some failure =>
    exact ⟨.error (.failed failure), emitter, d, e, outs, emitted_emit_of_objection hobjection,
      emitted_emit_of_objection (hsame.trans hobjection), .inl h⟩
  | none =>
  obtain ⟨⟨hname, hheader⟩, hmay⟩ := objection?_eq_none_iff.1 hobjection
  obtain ⟨header, hheader⟩ := Option.isSome_iff_exists.1 hheader
  have hout' : outputPath base (output.writing atomic) ≠ "" := hout
  have h₁' : d₁.DirAt (stagingPath base (output.writing atomic)) (".staging" :: l) := h₁
  have hsettings : (emitter.writing atomic).output = output.writing atomic :=
    congrArg (·.writing atomic) h.settings
  have hplace : d₁.HasPlace base output l t.name := hplaces hname output.atomicWrites
  -- before the commit the output directory has what it had when the run began, on both disks
  have hholds : e.holds (Storage.below base buffer) (finalPath emitter.output t.name) =
      d.holds (Storage.below base buffer) (finalPath emitter.output t.name) := by
    rw [h.settings, h.staged.holds hout h₁ hname]
    exact h.other.holds hout' h₁' hname
  by_cases hroom : buffer < Size.bufferLimit
  swap
  · -- both runs stop at the buffer, whatever the name of the file is that was to be filled
    obtain ⟨d', hfirst⟩ := emit_of_unbuffered hout h₁ (Nat.not_lt.1 hroom) h.staged
      h.settings hname hheader hmay hplace
    obtain ⟨e', hother⟩ := emit_of_unbuffered hout' h₁' (Nat.not_lt.1 hroom) h.other
      hsettings hname hheader hmay (hplaces hname atomic)
    rw [noting_writing hholds] at hother
    exact ⟨.error .overflow, _, d', e', outs, hfirst, hother, .inr ⟨rfl, Nat.not_lt.1 hroom⟩⟩
  obtain ⟨d', hfirst, hstaged⟩ := emit_of_fits hout h₁ hinside h.staged h.settings hname hheader
    hmay ⟨hplace, hroom⟩
  obtain ⟨e', hother, hstaged'⟩ := emit_of_fits hout' h₁' hinside h.other hsettings hname hheader
    hmay ⟨hplaces hname atomic, hroom⟩
  have hpath : finalPath (emitter.writing atomic).output t.name = finalPath emitter.output t.name :=
    rfl
  rw [noting_writing hholds, hpath, recorded_writing] at hother
  refine ⟨((d.noting (Storage.below base buffer) emitter t.name).recorded header
      (finalPath emitter.output t.name)).1,
    ((d.noting (Storage.below base buffer) emitter t.name).recorded header
      (finalPath emitter.output t.name)).2, d', e', outs ++ [t], hfirst, hother,
    .inl ⟨?_, ?_, hstaged, hstaged'⟩⟩
  · rw [recorded_output, noting_output, h.settings]
  · intro n
    rw [recorded_written, noting_written, mem_noted, h.written]
    simp [or_and_right, exists_or, or_comm, eq_comm]

/-- The outputs of a tensor are emitted in step. -/
theorem inStep_emitAll (hplaces : ∀ t ∈ later, validOutputName t.name = true →
      ∀ atomic, d₁.HasPlace base (output.writing atomic) l t.name) :
    InStep base buffer output atomic l d₁
      (Conversion.emitAll (Storage.below base buffer) later) := by
  induction later with
  | nil => exact inStep_pure ()
  | cons t later ih =>
    rw [Conversion.emitAll]
    refine (inStep_emit hout h₁ hinside (hplaces t List.mem_cons_self)).bind fun _ => ?_
    exact ih fun t' ht' => hplaces t' (List.mem_cons_of_mem t ht')

/-- **The keys of a run keep it together with the other one**: both come equally far, and stop for
the same reason if they stop. -/
theorem convertKeys_together {keys : List String} (progress : Progress (List String))
    (run : Conversion) (h : Together base output atomic l d₁ outs run.emitter d e)
    (hplaces : ∀ t ∈ checkpoint.resolvedOf naming keys, validOutputName t.name = true →
      ∀ atomic, d₁.HasPlace base (output.writing atomic) l t.name) :
    ∃ result last d' e' outs',
      d.run (Conversion.convertKeys (Storage.below base buffer) naming checkpoint keys progress
        run) =
          ((result, last), d') ∧
        e.run (Conversion.convertKeys (Storage.below base buffer) naming checkpoint keys progress
          (run.writing atomic)) = ((result, last.writing atomic), e') ∧
        (Together base output atomic l d₁ outs' last.emitter d' e' ∨ Unbuffered buffer result) := by
  induction keys generalizing outs run d e progress with
  -- a key is resolved to the same outputs in both runs, which the emitters of both are then given
  | nil => exact ⟨.ok (), run, d, e, outs, rfl, rfl, .inl h⟩
  | cons key keys ih =>
    rw [Checkpoint.resolvedOf] at hplaces
    rw [run_convertKeys_step, run_convertKeys_step]
    cases hkey : checkpoint.get key >>= naming.resolve with
    | error stop => exact ⟨.error stop, run, d, e, outs, rfl, rfl, .inl h⟩
    | ok outputs =>
    rw [hkey] at hplaces
    simp only at hplaces ⊢
    obtain ⟨answer, next, d', e', outs', hfirst, hother, hnext⟩ :=
      inStep_emitAll hout h₁ hinside (fun t ht => hplaces t (List.mem_append_left _ ht)) h
    have hother : e.emitted (run.writing atomic).emitter
        (Conversion.emitAll (Storage.below base buffer) outputs) =
          ((answer, next.writing atomic), e') := hother
    rw [hfirst, hother]
    cases answer with
    | error stop =>
      exact ⟨.error stop, { run.counted outputs with emitter := next }, d', e', outs', rfl, rfl,
        hnext⟩
    | ok _ =>
      exact ih (progress.next Source.exact).2
        (run.passed outputs next (progress.next Source.exact).2)
        (hnext.resolve_right fun hover => by simp [Unbuffered] at hover)
        fun t ht => hplaces t (List.mem_append_right _ ht)

/-! ## The end of two runs -/

omit hout h₁ hinside in
/-- The same files are to be seen on both disks. -/
theorem Together.same (h : Together base output atomic l d₁ outs emitter d e) :
    FileTree.Same e.tree d.tree := by
  intro k
  rw [h.other.view, h.staged.view]

omit hinside in
/-- If two runs are aborted, the same tree remains. -/
theorem Together.same_without (h : Together base output atomic l d₁ outs emitter d e) :
    FileTree.Same (e.without (stagingPath base output)).tree
      (d.without (stagingPath base output)).tree :=
  same_without_staging hout (h.staged.dirAt h₁) (h.other.dirAt h₁)
    (h.staged.limits.symm.trans h.other.limits) (h.staged.origin.trans h.other.origin.symm)
    fun k _ => h.same k

/-- Either both runs are committed, and end with the same tree, or a directory is in the place of
the same file for both, and the same tree remains once they are aborted. -/
theorem Together.commit (h : Together base output atomic l d₁ outs emitter d e) :
    ∃ d' e', (d.emitted emitter (commit (Storage.below base buffer)) =
      ((.ok emitter.stats, emitter), d') ∧
        e.emitted (emitter.writing atomic) (commit (Storage.below base buffer)) =
          ((.ok emitter.stats, emitter.writing atomic), e') ∧
        FileTree.Same e'.tree d'.tree) ∨
      ∃ failure, d.emitted emitter (commit (Storage.below base buffer)) =
          ((.error (.failed failure), emitter), d') ∧
        e.emitted (emitter.writing atomic) (commit (Storage.below base buffer)) =
          ((.error (.failed failure), emitter.writing atomic), e') ∧
        FileTree.Same (e'.without (stagingPath base output)).tree
          (d'.without (stagingPath base output)).tree := by
  obtain rfl : emitter.output = output := h.settings
  have hready : Ready base emitter.output l d₁ outs := h.staged.ready hout h₁ hinside
  have hready' : Ready base (emitter.writing atomic).output l d₁ outs :=
    h.other.ready hout h₁ hinside
  -- what a commit leaves does not say which way the files were written
  have hsame : ∀ {done d' e'}, Published base emitter.output l d₁ outs done d' →
      Published base (emitter.writing atomic).output l d₁ outs done e' →
      (∀ n ∈ done, d₁.tree.find? (fileName n :: l) ≠ some .directory) →
      FileTree.Same (e'.without (stagingPath base emitter.output)).tree
        (d'.without (stagingPath base emitter.output)).tree := by
    intro done d' e' hfirst hother hclear
    exact hfirst.same hready ⟨hother.limits, hother.origin, hother.view⟩ hclear
  rcases clear_or_blocked d₁ l emitter.written.toList with
    hclear | ⟨front, blocked, back, hsplit, hfront, hblocked⟩
  · have hfree : ∀ t ∈ outs, d₁.tree.find? (fileName t.name :: l) ≠ some .directory :=
      fun t ht => hclear t.name ((h.written t.name).2 ⟨t, ht, rfl⟩)
    obtain ⟨d', hpublished, hcommit⟩ := commit_of_clear buffer hready h.staged h.written hfree
    obtain ⟨e', hpublished', hcommit'⟩ := commit_of_clear buffer hready' h.other h.written hfree
    exact ⟨_, _, .inl ⟨hcommit, hcommit', hsame hpublished hpublished' hclear⟩⟩
  · obtain ⟨d', hpublished, hcommit⟩ :=
      commit_of_blocked buffer hready h.staged h.written hsplit hfront hblocked
    obtain ⟨e', hpublished', hcommit'⟩ :=
      commit_of_blocked buffer hready' h.other h.written hsplit hfront hblocked
    exact ⟨d', e', .inr ⟨_, hcommit, hcommit', hsame hpublished hpublished' hfront⟩⟩

end Run

/-! ## Runs -/

/-- A run starts without regard to the way it writes. -/
theorem outcome_start_writing (hout : outputPath base output ≠ "") (atomic : Bool) (d : Disk) :
    d.outcome (start (Storage.below base buffer) (output.writing atomic)) =
      ((d.outcome (start (Storage.below base buffer) output)).1.map (·.writing atomic),
        (d.outcome (start (Storage.below base buffer) output)).2) := by
  have hout' : outputPath base (output.writing atomic) ≠ "" := hout
  have hpath : outputPath base (output.writing atomic) = outputPath base output := rfl
  have hstaging : stagingPath base (output.writing atomic) = stagingPath base output := rfl
  have hprepared : d.prepared base (output.writing atomic) = d.prepared base output := rfl
  rw [outcome_start hout, outcome_start hout', hpath, hstaging, hprepared]
  split
  · split <;> rfl
  · rfl

/-- **The way in which files are written makes no difference** to the outcome of a run and to the
tree that it leaves, unless it stops for want of a buffer. -/
theorem perform_either_way (hout : outputPath base output ≠ "") (atomic : Bool) (d : Disk)
    (hfree : ∀ t ∈ checkpoint.resolved naming, validOutputName t.name = true →
      d.HasRoom base output t.name ∧ ¬ d.Crosses base output t.name) :
    (d.run (Conversion.perform (Storage.below base buffer) (output.writing atomic) naming
      checkpoint)).1 =
        (d.run (Conversion.perform (Storage.below base buffer) output naming checkpoint)).1 ∧
      (FileTree.Same
          (d.run (Conversion.perform (Storage.below base buffer) (output.writing atomic) naming
            checkpoint)).2.tree
          (d.run (Conversion.perform (Storage.below base buffer) output naming checkpoint)).2.tree ∨
        Unbuffered buffer (d.run (Conversion.perform (Storage.below base buffer) output naming
          checkpoint)).1.result) := by
  have hout' : outputPath base (output.writing atomic) ≠ "" := hout
  rw [run_perform, run_perform, outcome_start_writing hout]
  cases hstart : d.outcome (start (Storage.below base buffer) output) with
  | mk started d₁ =>
  cases started with
  | error stop => exact ⟨rfl, .inl fun _ => rfl⟩
  | ok emitter =>
  obtain ⟨rfl, l, hbegun⟩ := begun_of_start hout hstart
  obtain ⟨result, run, d₂, e₂, outs, hkeys, hkeys', htogether⟩ :=
    convertKeys_together hout hbegun.staging hbegun.files
      (Progress.start Source.exact checkpoint.keys) { emitter := { output } }
      (together_nil base output atomic l d₁) fun t ht hname atomic =>
        hbegun.hasPlace hout hname (hfree t ht hname).1 (hfree t ht hname).2 atomic
  have hkeys' : d₁.run (Conversion.convertKeys (Storage.below base buffer) naming checkpoint
      checkpoint.keys (Progress.start Source.exact checkpoint.keys)
      { emitter := Emitter.writing { output } atomic }) = ((result, run.writing atomic), e₂) :=
    hkeys'
  simp only [Except.map, hkeys, hkeys']
  -- a failure that is reported is followed by an abort; an overflow leaves all as it is
  cases result with
  | error stop =>
    cases stop with
    | failed failure =>
      have htogether := htogether.resolve_right fun hover => by simp [Unbuffered] at hover
      have haborted := htogether.same_without hout hbegun.staging
      simp only [run_abort hout, run_abort hout']
      exact ⟨rfl, .inl haborted⟩
    | overflow => exact ⟨rfl, htogether.imp Together.same fun hover => ⟨rfl, hover.2⟩⟩
  | ok _ =>
  have htogether := htogether.resolve_right fun hover => by simp [Unbuffered] at hover
  obtain ⟨d₃, e₃, ⟨hfirst, hother, hsame⟩ | ⟨failure, hfirst, hother, hsame⟩⟩ :=
    htogether.commit hout hbegun.staging hbegun.files
  · have hother : e₂.emitted (run.writing atomic).emitter (commit (Storage.below base buffer)) =
        ((.ok run.emitter.stats, run.emitter.writing atomic), e₃) := hother
    simp only [hfirst, hother]
    exact ⟨rfl, .inl hsame⟩
  · have hother : e₂.emitted (run.writing atomic).emitter (commit (Storage.below base buffer)) =
        ((.error (.failed failure), run.emitter.writing atomic), e₃) := hother
    simp only [hfirst, hother, run_abort hout, run_abort hout']
    exact ⟨rfl, .inl hsame⟩

/-- The way in which files are written makes no difference to what becomes of a conversion, and to
the tree that it leaves, where no output lacks room and none is crossed. Only the trees of runs that
stop for want of a buffer may differ. -/
theorem convert_either_way {config : Config} {converter : Converter (StateM Disk)} {d₀ e₀ : Disk}
    (hmake : d₀.outcome (Converter.ofConfig config) = (.ok converter, e₀)) (atomic : Bool) :
    ∃ converter',
      d₀.outcome (Converter.ofConfig (config.writing atomic)) = (.ok converter', e₀) ∧
        ∀ (checkpoint : Checkpoint) (d : Disk),
          (∀ t ∈ checkpoint.resolved config.naming, validOutputName t.name = true →
            d.HasRoom "." config.output t.name ∧ ¬ d.Crosses "." config.output t.name) →
          (d.run (converter'.convert checkpoint)).1 = (d.run (converter.convert checkpoint)).1 ∧
            (FileTree.Same (d.run (converter'.convert checkpoint)).2.tree
                (d.run (converter.convert checkpoint)).2.tree ∨
              Unbuffered config.storage.bufferSize
                (d.run (converter.convert checkpoint)).1.result) := by
  have hvalid : (config.writing atomic).validate = config.validate := rfl
  refine ⟨_, outcome_ofConfig_congr hvalid rfl hmake, fun checkpoint d hfree => ?_⟩
  obtain ⟨-, rfl⟩ := converter_of_config hmake
  simp only [convert_converterOf, Config.writing]
  exact perform_either_way (outputPath_ne_empty config.output) atomic d hfree

/-! ### A run that ends at the same file, whichever way it writes -/

/-- The directory `out` with something in the place of a file, on a file system without limits. -/
def boundless : Disk := { occupied with longestName := none, longestPath := none }

/-- Either way the run ends at the same directory that is in the way of a file. -/
theorem convert_either_way_boundless :
    blank.outcome (Converter.ofConfig outward.config) = (.ok outward, blank) ∧
      (∀ t ∈ twoTensors.resolved outward.config.naming, validOutputName t.name = true →
        boundless.HasRoom "." outward.config.output t.name ∧
          ¬ boundless.Crosses "." outward.config.output t.name) ∧
      ∃ converter', blank.outcome (Converter.ofConfig (outward.config.writing false)) =
          (.ok converter', blank) ∧
        (boundless.run (converter'.convert twoTensors)).1.result = .error (.failed inTheWay) ∧
        FileTree.Same (boundless.run (converter'.convert twoTensors)).2.tree
          (boundless.run (outward.convert twoTensors)).2.tree := by
  have hmake : blank.outcome (Converter.ofConfig outward.config) = (.ok outward, blank) :=
    outcome_ofConfig (by decide +kernel) (by decide +kernel)
  have hlead : boundless.lead? (outputPath "." outward.config.output) = some ["out"] := by
    decide +kernel
  have hvisits : boundless.visits (outputPath "." outward.config.output) = [[], [], ["out"]] := by
    decide +kernel
  have hfree : ∀ t ∈ twoTensors.resolved outward.config.naming, validOutputName t.name = true →
      boundless.HasRoom "." outward.config.output t.name ∧
        ¬ boundless.Crosses "." outward.config.output t.name := by
    intro t _ _
    refine ⟨hasRoom_of_unlimited rfl rfl _ _ _, ?_⟩
    rintro ⟨l, x, hl, -, hmem⟩
    obtain rfl : ["out"] = l := Option.some.inj (hlead.symm.trans hl)
    rw [hvisits] at hmem
    simp at hmem
  have hresult : (boundless.run (outward.convert twoTensors)).1.result =
      .error (.failed inTheWay) := by
    decide +kernel
  obtain ⟨converter', hmake', hruns⟩ := convert_either_way hmake false
  obtain ⟨hsame, htree⟩ := hruns twoTensors boundless hfree
  refine ⟨hmake, hfree, converter', hmake', by rw [hsame, hresult], htree.resolve_right ?_⟩
  rw [hresult]
  simp [Unbuffered]

/-! ### Runs that end in different ways -/

/-- The converter whose path to the output directory leads through the place where an atomic write
of the file of `a` goes first. -/
def through : Converter (StateM Disk) :=
  converterOf { output := { dir := ".staging/.a.bin.tmp/../.." } }

/-- A tensor of one element. -/
def loneTensor : Checkpoint := .ofList [("a", .ok ⟨"a", [1], [1]⟩)]

/-- An atomic write fails and the other one does not, where the path to the output directory crosses
the place of a file, and where a path may not be as long as that of an atomic write. -/
theorem ways_differ :
    let direct := through.config.writing false
    let endless : Disk := { blank with longestName := none, longestPath := none }
    let tight : Disk := { blank with longestName := none, longestPath := some 20 }
    (through.config.fault? = none ∧ direct.fault? = none ∧
      (endless.run (through.convert loneTensor)).1.result = .error (.failed (.write
        "./.staging/.a.bin.tmp/../../.staging/.a.bin.tmp" .createFile)) ∧
      (endless.run ((converterOf direct).convert loneTensor)).1.result =
        .ok ⟨1, 0, 1, 16, 0⟩) ∧
    outward.config.fault? = none ∧ (outward.config.writing false).fault? = none ∧
      (tight.run (outward.convert loneTensor)).1.result =
        .error (.failed (.write "./out/.staging/.a.bin.tmp" .createFile)) ∧
      (tight.run ((converterOf (outward.config.writing false)).convert loneTensor)).1.result =
        .ok ⟨1, 0, 1, 16, 0⟩ := by
  decide +kernel

end Disk

end FlatWeights
