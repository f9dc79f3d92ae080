import FlatWeights.Proofs.Emitter.Calls

/-!
What calls of an emitter leave alone. Between the start of a run and its commit nothing outside of
the staging directory changes, and all that comes into being are files right in it, whatever the
names, the tensors and the answers are. `Framed` says so of the disk; `Framed.emit` is the step, and
`framed_offered` the run.

Calls remove what they have written themselves, with one exception: where the path to the output
directory leads through the staging directory, a directory of that path may stand where an atomic
write goes to first, and then a failed write removes it (`Barred`). What an abort leaves in this
case is the reason for the conditions of `emitter_frame`.
-/

set_option autoImplicit false

namespace FlatWeights

open Emitter

namespace Disk

variable {d d₁ e f : Disk} {base p : Path} {buffer : Nat} {output : OutputSettings}
  {l k : Location}
  {calls : List OutputTensor} {t : OutputTensor} {x : String} {pieces : List Bytes}
  {emitter : Emitter}

/-- A file right in the staging directory, under a name of the staging of one of the calls. -/
def Placed (output : OutputSettings) (l : Location) (calls : List OutputTensor) (k : Location)
    (found : Entry) : Prop :=
  ∃ t ∈ calls, validOutputName t.name = true ∧ ∃ x ∈ stagingNames output t.name,
    k = x :: ".staging" :: l ∧ ∃ content, found = .file content

/-- **The frame of calls.** The disk is what it was when the run began, but for files right in the
staging directory, and for directories that barred one of them. -/
structure Framed (base : Path) (output : OutputSettings) (l : Location) (d₁ : Disk)
    (calls : List OutputTensor) (d : Disk) : Prop where
  limits : SameLimits d₁ d
  origin : d.origin (outputPath base output) = d₁.origin (outputPath base output)
  outside : ∀ k, ¬ ".staging" :: l <:+ k → d.tree.find? k = d₁.tree.find? k
  created : ∀ k found, d.tree.find? k = some found →
    d₁.tree.find? k = some found ∨ Placed output l calls k found
  kept : ∀ k, d₁.tree.find? k = some .directory → d.tree.find? k = some .directory ∨
    ∃ t ∈ calls, d₁.Barred base output l t.name ∧ tempName t.name :: ".staging" :: l <:+ k

/-- Before the first call nothing has changed. -/
theorem Framed.refl (base : Path) (output : OutputSettings) (l : Location) (d₁ : Disk)
    (calls : List OutputTensor) : Framed base output l d₁ calls d₁ :=
  ⟨.refl d₁, rfl, fun _ _ => rfl, fun _ _ h => .inl h, fun _ h => .inl h⟩

section Step

variable (hout : outputPath base output ≠ "") (hbegun : Begun base output l d d₁)
  (h : Framed base output l d₁ calls e)

include h

/-- Every directory was there when the run began. -/
theorem Framed.directory (hk : e.tree.find? k = some .directory) :
    d₁.tree.find? k = some .directory := by
  rcases h.created k _ hk with hsame | ⟨_, _, _, _, _, _, _, hfile⟩
  · exact hsame
  · exact absurd hfile (by simp)

/-- What becomes of files right in the staging directory does not break the frame. -/
theorem Framed.became {view : Location → Option Entry} (hout : outputPath base output ≠ "")
    (hbecame : Became (stagingPath base output) e f view)
    (houtside : ∀ k, ¬ ".staging" :: l <:+ k → view k = e.tree.find? k)
    (hcreated : ∀ k found, view k = some found →
      e.tree.find? k = some found ∨ Placed output l calls k found)
    (hkept : ∀ k, e.tree.find? k = some .directory → view k = some .directory) :
    Framed base output l d₁ calls f where
  limits := h.limits.trans hbecame.limits
  origin := by
    have hsame := hbecame.origin
    rw [origin_staging hout, origin_staging hout] at hsame
    rw [hsame, h.origin]
  outside k hk := by
    rw [hbecame.view, houtside k hk, h.outside k hk]
  created k found hfound := by
    rw [hbecame.view] at hfound
    rcases hcreated k found hfound with hsame | hplaced
    · exact h.created k found hsame
    · exact .inr hplaced
  kept k hk := by
    rw [hbecame.view]
    exact (h.kept k hk).imp_left (hkept k)

include hout

/-- The way to the staging directory is what it was. -/
theorem Framed.visits : e.visits (stagingPath base output) =
    d₁.visits (stagingPath base output) := by
  rw [Disk.visits, Disk.visits, origin_staging hout, origin_staging hout, h.origin]

include hbegun

/-- The way to the staging directory, if it is open, leads where it led. -/
theorem Framed.place {s : Location} (hdir : e.DirAt (stagingPath base output) s) :
    s = ".staging" :: l := by
  have hlead : e.lead? (stagingPath base output) = d₁.lead? (stagingPath base output) := by
    rw [stagingPath, lead?_join hout isName_staging, lead?_join hout isName_staging, Disk.lead?,
      Disk.lead?, h.origin]
  rw [hdir.lead?, hbegun.staging.lead?] at hlead
  exact Option.some.inj hlead

/-- The way to the staging directory is open, unless a directory on it barred one of the files. -/
theorem Framed.dirAt_or : e.DirAt (stagingPath base output) (".staging" :: l) ∨
    ∃ t ∈ calls, d₁.Barred base output l t.name ∧ ∃ k ∈ d₁.visits (outputPath base output),
      tempName t.name :: ".staging" :: l <:+ k := by
  by_cases hway : ∀ k ∈ d₁.visits (stagingPath base output), e.tree.find? k = some .directory
  · left
    refine hbegun.staging.mono h.limits ?_ hway
    rw [origin_staging hout, origin_staging hout, h.origin]
  · right
    push Not at hway
    obtain ⟨k, hmem, hgone⟩ := hway
    obtain ⟨t, ht, hbarred, hsuf⟩ :=
      (h.kept k (hbegun.staging.directory hmem)).resolve_left hgone
    refine ⟨t, ht, hbarred, k, ?_, hsuf⟩
    rcases (mem_visits_staging hout (hbegun.out hout).1.lead?).1 hmem with hmem | rfl
    · exact hmem
    · exact absurd hsuf (not_suffix_cons_self _ _)

/-- Directories that are made anew on the way to the staging directory were there when the run
began. -/
theorem Framed.grown (hgrown : Grown (stagingPath base output) e f) :
    Framed base output l d₁ calls f := by
  -- the way is the one on which the run began, and its directories were there then
  have hwas : ∀ k, k ∈ e.visits (stagingPath base output) →
      d₁.tree.find? k = some .directory := by
    intro k hk
    rw [h.visits hout] at hk
    exact hbegun.staging.directory hk
  refine ⟨h.limits.trans hgrown.limits, (hgrown.origin _).trans h.origin, ?_, ?_, ?_⟩
  · intro k hk
    rcases hgrown.view k with hsame | ⟨hnone, -, hmem⟩
    · rw [hsame, h.outside k hk]
    · rw [h.outside k hk, hwas k hmem] at hnone
      exact absurd hnone (by simp)
  · intro k found hfound
    rcases hgrown.view k with hsame | ⟨-, hdirectory, hmem⟩
    · rw [hsame] at hfound
      exact h.created k found hfound
    · left
      rw [hwas k hmem, ← hdirectory, hfound]
  · intro k hk
    exact (h.kept k hk).imp_left hgrown.kept

/-! ## Requests at the places of the staging directory -/

section Entry

variable (ht : t ∈ calls) (hname : validOutputName t.name = true)

include ht hname

omit hbegun in
/-- A new file of a call, whatever is in it, keeps the frame. -/
theorem Framed.with_file (hx : x ∈ stagingNames output t.name)
    (hdir : e.DirAt (stagingPath base output) (".staging" :: l))
    (htakes : e.TakesEntry (stagingPath base output) x)
    (hfree : e.tree.find? (x :: ".staging" :: l) ≠ some .directory) {content : Bytes}
    (hbecame : Became (stagingPath base output) e f
      (Function.update e.tree.find? (x :: ".staging" :: l) (some (.file content)))) :
    Framed base output l d₁ calls f ∧ f.DirAt (stagingPath base output) (".staging" :: l) ∧
      f.TakesEntry (stagingPath base output) x ∧
      f.tree.find? (x :: ".staging" :: l) = some (.file content) := by
  refine ⟨?_, hdir.became_file hbecame hfree, hbecame.limits.takesEntry htakes, ?_⟩
  · -- the view changes at the place of the file alone, and the file belongs to a call
    apply h.became hout hbecame
    · intro k hk
      apply Function.update_of_ne
      rintro rfl
      exact hk (List.suffix_cons _ _)
    · intro k found hfound
      rw [Function.update_apply] at hfound
      split at hfound
      · rename_i hk
        exact .inr ⟨t, ht, hname, x, hx, hk, _, (Option.some.inj hfound).symm⟩
      · exact .inl hfound
    · intro k hk
      rw [Function.update_of_ne, hk]
      rintro rfl
      exact hfree hk
  · rw [hbecame.view, Function.update_self]

variable (buffer) in
/-- A file of a call is written, or not, and the frame holds. -/
theorem Framed.write (hx : x ∈ stagingNames output t.name) (hvalid : Path.IsName x)
    (hfull : base.join p = (stagingPath base output).join x) (pieces : List Bytes) :
    (∃ f, e.outcome ((Storage.below base buffer).write p pieces) = (.ok (), f) ∧
        Framed base output l d₁ calls f ∧
        f.DirAt (stagingPath base output) (".staging" :: l) ∧
        f.TakesEntry (stagingPath base output) x ∧
        ∃ content, f.tree.find? (x :: ".staging" :: l) = some (.file content)) ∨
      ∃ stop f, e.outcome ((Storage.below base buffer).write p pieces) = (.error stop, f) ∧
        Framed base output l d₁ calls f := by
  have hwrite : e.outcome ((Storage.below base buffer).write p pieces) = _ :=
    outcome_write_eq isName_staging hout hvalid hfull pieces
  rw [← stagingPath] at hwrite
  have hgrown := h.grown hout hbegun (withParent_grown e (stagingPath base output))
  generalize e.withParent (stagingPath base output) = made at hwrite hgrown
  obtain ⟨granted, g⟩ := made
  rw [hwrite]
  cases granted with
  | false => exact .inr ⟨_, g, rfl, hgrown⟩
  | true =>
  simp only [if_true]
  -- creating the file needs an open way, a name that is taken, and no directory in the way
  by_cases hopen : ∃ s, g.DirAt (stagingPath base output) s
  · obtain ⟨s, hdir⟩ := hopen
    obtain rfl := hgrown.place hout hbegun hdir
    by_cases hcan : g.TakesEntry (stagingPath base output) x ∧
        g.tree.find? (x :: ".staging" :: l) ≠ some .directory
    · obtain ⟨htakes, hfree⟩ := hcan
      by_cases hbuffer : buffer < Size.bufferLimit
      · obtain ⟨hcreated, hbecame⟩ := create_fill hdir hvalid htakes hfree pieces.flatten
        obtain ⟨hframed, hdir', htakes', hfile⟩ :=
          hgrown.with_file hout ht hname hx hdir htakes hfree hbecame
        left
        exact ⟨_, by rw [if_pos hcreated, filled, if_pos hbuffer], hframed, hdir', htakes', _,
          hfile⟩
      · -- the file is there, but there is no buffer to fill it through
        obtain ⟨hcreated, hbecame⟩ := create_taken hdir hvalid htakes hfree
        right
        exact ⟨_, _, by rw [if_pos hcreated, filled, if_neg hbuffer],
          (hgrown.with_file hout ht hname hx hdir htakes hfree hbecame).1⟩
    · have hrefused := create_refused hdir hvalid fun htakes =>
        by_contra fun hfree => hcan ⟨htakes, hfree⟩
      right
      rw [hrefused]
      exact ⟨_, g, rfl, hgrown⟩
  · right
    have hrefused : g.create ((stagingPath base output).join x) = (false, g) := by
      rw [Disk.create]
      cases hk : g.locate ((stagingPath base output).join x) with
      | error astray => rfl
      | ok k =>
        obtain ⟨-, -, s, hs, hdirectory, -⟩ :=
          (locate_join_eq_ok_iff (Path.join_ne_empty _ isName_staging) hvalid).1 hk
        exact absurd ⟨s, hs, hdirectory⟩ hopen
    rw [hrefused]
    exact ⟨_, g, rfl, hgrown⟩

omit hbegun in
/-- A file takes its place among the staged ones, or not, and the frame holds. -/
theorem Framed.rename (hatomic : output.atomicWrites = true)
    (hdir : e.DirAt (stagingPath base output) (".staging" :: l))
    (htakes : e.TakesEntry (stagingPath base output) (tempName t.name)) {content : Bytes}
    (hfile : e.tree.find? (tempName t.name :: ".staging" :: l) = some (.file content)) :
    Framed base output l d₁ calls (e.outcome ((Storage.below base buffer).rename
      (tempPath output t.name) (stagedPath output t.name))).2 := by
  have htemp := isName_tempName hname
  have hvalid := isName_fileName hname
  rw [outcome_rename (join_tempPath base output t.name) (join_stagedPath base output hname)]
  by_cases hfree : e.tree.find? (fileName t.name :: ".staging" :: l) = some .directory
  · rw [rename_refused hdir htemp hdir hvalid htakes hfile fun _ => hfree]
    exact h
  · -- the view changes at two names, neither of which is that of a directory
    have hne : tempName t.name :: ".staging" :: l ≠ fileName t.name :: ".staging" :: l := by
      intro heq
      exact tempName_ne_fileName hname (List.cons.inj heq).1
    obtain ⟨-, hmoved⟩ := rename_file hdir htemp hdir hvalid htakes hfile (htakes.file hname)
      hfree hne
    apply h.became hout hmoved
    · intro k hk
      rw [Function.update_of_ne, Function.update_of_ne]
      all_goals
        rintro rfl
        exact hk (List.suffix_cons _ _)
    · intro k found hfound
      rw [Function.update_apply, Function.update_apply] at hfound
      split at hfound
      · rename_i hk
        refine .inr ⟨t, ht, hname, fileName t.name, ?_, hk, _, (Option.some.inj hfound).symm⟩
        rw [stagingNames, if_pos hatomic]
        simp
      · split at hfound
        · exact absurd hfound (by simp)
        · exact .inl hfound
    · intro k hk
      rw [Function.update_of_ne, Function.update_of_ne, hk]
      · rintro rfl
        exact absurd (hk.symm.trans hfile) (by simp)
      · rintro rfl
        exact hfree hk

/-- What stands where an atomic write goes to first is removed, and the frame holds; a directory
that stands there barred the file. -/
theorem Framed.delete (hatomic : output.atomicWrites = true) :
    Framed base output l d₁ calls
      (e.outcome ((Storage.below base buffer).delete (tempPath output t.name))).2 := by
  have htemp := isName_tempName hname
  rw [outcome_delete_snd (join_tempPath base output t.name)]
  rcases without_eq_self_or (Path.join_ne_empty (outputPath base output) isName_staging) htemp e
    with hsame | ⟨s, hdir, htakes⟩
  · rw [stagingPath, hsame]
    exact h
  rw [← stagingPath] at hdir htakes
  obtain rfl := h.place hout hbegun hdir
  obtain ⟨hcleared, hself⟩ := without_cleared hdir htemp htakes
  -- a path begins outside of what is removed
  have horigin := (hcleared.origin (outputPath base output)).eq_of_not_suffix (by
    rw [h.origin]
    exact hbegun.not_suffix_ground _)
  refine ⟨h.limits.trans hcleared.limits, horigin.trans h.origin, ?_, ?_, ?_⟩
  · intro k hk
    rw [hcleared.outside k fun hsuf => hk ((List.suffix_cons _ _).trans hsuf), h.outside k hk]
  · intro k found hfound
    by_cases hsuf : tempName t.name :: ".staging" :: l <:+ k
    · by_cases hk : k = tempName t.name :: ".staging" :: l
      · left
        subst hk
        rcases hself with hnone | ⟨hdirectory, k, hmem, hbelow, hne⟩
        · exact absurd (hfound.symm.trans hnone) (by simp)
        · -- what remains is on the way to a directory that was there when the run began
          obtain rfl := Option.some.inj (hdirectory.symm.trans hfound)
          have hthere := h.directory (hdir.directory hmem)
          exact FileTree.directory_of_suffix (by rw [hthere]; rfl) hbelow hne
      · rw [hcleared.below k hsuf hk] at hfound
        exact absurd hfound (by simp)
    · rw [hcleared.outside k hsuf] at hfound
      exact h.created k found hfound
  · intro k hk
    by_cases hsuf : tempName t.name :: ".staging" :: l <:+ k
    · right
      refine ⟨t, ht, ⟨hatomic, hname, h.limits.symm.takesEntry htakes, ?_⟩, hsuf⟩
      by_cases heq : k = tempName t.name :: ".staging" :: l
      · rw [← heq, hk]
      · exact FileTree.directory_of_suffix (by rw [hk]; rfl) hsuf heq
    · rw [hcleared.outside k hsuf]
      exact h.kept k hk

end Entry

/-! ## One call -/

/-- Staging a file keeps the frame, whether it succeeds or fails. -/
theorem Framed.stage (houtput : emitter.output = output) (ht : t ∈ calls)
    (hname : validOutputName t.name = true) (pieces : List Bytes) :
    Framed base output l d₁ calls
      (e.emitted emitter (Emitter.stage (Storage.below base buffer) t.name pieces)).2 := by
  subst houtput
  rw [emitted_stage]
  by_cases hatomic : emitter.output.atomicWrites = true
  · have hx : tempName t.name ∈ stagingNames emitter.output t.name := by
      rw [stagingNames, if_pos hatomic]
      simp
    rw [if_pos hatomic]
    rcases h.write buffer hout hbegun ht hname hx (isName_tempName hname)
      (join_tempPath base emitter.output t.name) pieces with
      ⟨f, hwrite, hframed, hdir, htakes, content, hfile⟩ | ⟨stop, f, hwrite, hframed⟩
    · rw [hwrite]
      simp only
      exact hframed.rename hout ht hname hatomic hdir htakes hfile
    · rw [hwrite]
      cases stop with
      | failed failure =>
        simp only
        exact hframed.delete hout hbegun ht hname hatomic
      | overflow => exact hframed
  · have hx : fileName t.name ∈ stagingNames emitter.output t.name := by
      rw [stagingNames, if_neg hatomic]
      simp
    rw [if_neg hatomic]
    rcases h.write buffer hout hbegun ht hname hx (isName_fileName hname)
      (join_stagedPath base emitter.output hname) pieces with
      ⟨f, hwrite, hframed, -⟩ | ⟨stop, f, hwrite, hframed⟩
    · rw [hwrite]
      exact hframed
    · rw [hwrite]
      exact hframed

/-- **The step.** A call keeps the frame, whatever its name, its tensor and its answer are. -/
theorem Framed.emit (houtput : emitter.output = output) (ht : t ∈ calls) :
    Framed base output l d₁ calls
      (e.emitted emitter (Emitter.emit (Storage.below base buffer) t)).2 := by
  cases hobjection : emitter.objection? t with
  | some failure =>
    rw [emitted_emit_of_objection hobjection]
    exact h
  | none =>
  have hname := (objection?_eq_none_iff.1 hobjection).1.1
  have hnoted : (e.noting (Storage.below base buffer) emitter t.name).output = output := by
    rw [noting_output, houtput]
  obtain ⟨header, -, hcases⟩ := stopped_or_recorded e base buffer hobjection
  have hstaged : Framed base output l d₁ calls (e.emitted _ (Emitter.stage
      (Storage.below base buffer) t.name (WeightFile.pieces header t.data))).2 :=
    h.stage hout hbegun hnoted ht hname _
  obtain ⟨stop, f, hstage, hemit⟩ | ⟨f, hstage, hemit⟩ := hcases
  · rw [hemit]
    rwa [hstage] at hstaged
  · -- counting the file does not touch the disk
    rw [hemit]
    rwa [hstage] at hstaged

end Step

/-! ## A run -/

/-- **The run.** Any number of calls keeps the frame. -/
theorem framed_offered (hout : outputPath base output ≠ "") (hbegun : Begun base output l d d₁)
    (houtput : emitter.output = output) (calls : List OutputTensor) :
    Framed base output l d₁ calls (d₁.offered (Storage.below base buffer) emitter calls).2 := by
  have hstep : ∀ t ∈ calls, ∀ emitter e,
      emitter.output = output ∧ Framed base output l d₁ calls e →
      (e.emitted emitter (Emitter.emit (Storage.below base buffer) t)).1.2.output = output ∧
        Framed base output l d₁ calls
          (e.emitted emitter (Emitter.emit (Storage.below base buffer) t)).2 :=
    fun t ht emitter e h =>
      ⟨(emitted_emit_output ..).trans h.1, h.2.emit hout hbegun h.1 ht⟩
  have hrun := offered_induction
    (P := fun emitter e => emitter.output = output ∧ Framed base output l d₁ calls e)
    hstep ⟨houtput, .refl base output l d₁ calls⟩
  exact hrun.2

/-! ## Aborting -/

/-- The path to the output directory leads through what is below its staging directory, as
`.staging/a/../..` does. -/
def Detour (base : Path) (output : OutputSettings) (l : Location) (d : Disk) : Prop :=
  ∃ k ∈ d.visits (outputPath base output), ".staging" :: l <:+ k ∧ k ≠ ".staging" :: l

/-- **What an abort leaves.** All that is outside of the staging directory is as the run began with
it, and nothing is left of that directory, unless the path to the output directory is a detour. Then
the directory itself may remain; it is empty, unless a file of a call was barred. -/
structure Discarded (base : Path) (output : OutputSettings) (l : Location) (d d₁ : Disk)
    (calls : List OutputTensor) (e : Disk) : Prop where
  outside : ∀ k, ¬ ".staging" :: l <:+ k → e.tree.find? k = d₁.tree.find? k
  inside : ∀ k found, ".staging" :: l <:+ k → e.tree.find? k = some found →
    Detour base output l d ∧ (k = ".staging" :: l ∧ found = .directory ∨
      ∃ t ∈ calls, d₁.Barred base output l t.name)

/-- Removing the staging directory discards whatever calls have left. -/
theorem Framed.discarded (hout : outputPath base output ≠ "") (hbegun : Begun base output l d d₁)
    (h : Framed base output l d₁ calls e) :
    Discarded base output l d d₁ calls (e.without (stagingPath base output)) := by
  have hdetour : ∀ k ∈ d₁.visits (outputPath base output), ".staging" :: l <:+ k →
      k ≠ ".staging" :: l → Detour base output l d := fun k hk hsuf hne =>
    ⟨k, WorkingDir.visits_of_fell hbegun.fell hk, hsuf, hne⟩
  rcases h.dirAt_or hout hbegun with hdir | ⟨t, ht, hbarred, k, hmem, hsuf⟩
  · obtain ⟨hcleared, hself⟩ := hdir.cleared_staging hout
    refine ⟨fun k hk => (hcleared.outside k hk).trans (h.outside k hk), ?_⟩
    intro k found hsuf hfound
    by_cases hk : k = ".staging" :: l
    · subst hk
      rcases hself with hnone | ⟨hdirectory, k, hmem, hbelow, hne⟩
      · exact absurd (hfound.symm.trans hnone) (by simp)
      · rw [Disk.visits, h.origin] at hmem
        exact ⟨hdetour k hmem hbelow hne,
          .inl ⟨rfl, Option.some.inj (hfound.symm.trans hdirectory)⟩⟩
    · exact absurd (hfound.symm.trans (hcleared.below k hsuf hk)) (by simp)
  · -- the way may be cut, so that nothing can be removed
    have hne : k ≠ ".staging" :: l := by
      rintro rfl
      exact not_suffix_cons_self _ _ hsuf
    refine ⟨fun k hk => ?_, fun _ _ _ _ =>
      ⟨hdetour k hmem ((List.suffix_cons _ _).trans hsuf) hne, .inr ⟨t, ht, hbarred⟩⟩⟩
    rw [← h.outside k hk]
    rcases without_eq_self_or hout isName_staging e with hsame | ⟨l', hopen, htakes⟩
    · rw [stagingPath, hsame]
    · have hlead : e.lead? (outputPath base output) = some l := by
        rw [Disk.lead?, h.origin]
        exact (hbegun.out hout).1.lead?
      obtain rfl : l = l' := Option.some.inj (hlead.symm.trans hopen.lead?)
      exact (cleared_of_takesEntry hopen htakes).outside k hk

/-- **The frame of an emitter.** After a run has started, calls of any kind and in any number keep
the frame, and an abort discards all that they have left. To abort once more changes nothing, and
neither does it after a commit that has succeeded. -/
theorem emitter_frame (hout : outputPath base output ≠ "")
    (hstart : d.outcome (start (Storage.below base buffer) output) = (.ok emitter, d₁))
    (calls : List OutputTensor) :
    ∃ l, d.lead? (outputPath base output) = some l ∧
      d₁.DirAt (stagingPath base output) (".staging" :: l) ∧
      let given := d₁.offered (Storage.below base buffer) emitter calls
      let aborted := (given.2.run (abort (Storage.below base buffer) output)).2
      Framed base output l d₁ calls given.2 ∧
        Discarded base output l d d₁ calls aborted ∧
        (aborted.run (abort (Storage.below base buffer) output)).2 = aborted ∧
        ∀ stats last e, given.2.emitted given.1.2 (commit (Storage.below base buffer)) =
          ((.ok stats, last), e) → (e.run (abort (Storage.below base buffer) output)).2 = e := by
  obtain ⟨rfl, l, hbegun⟩ := begun_of_start hout hstart
  refine ⟨l, hbegun.lead, hbegun.staging, ?_⟩
  intro given aborted
  have hframed : Framed base output l d₁ calls given.2 := framed_offered hout hbegun rfl calls
  have hoffered : given.1.2.output = output := offered_output ..
  have haborted : aborted = given.2.without (stagingPath base output) := by
    show (given.2.run (abort (Storage.below base buffer) output)).2 = _
    rw [run_abort hout]
  refine ⟨hframed, ?_, ?_, ?_⟩
  · rw [haborted]
    exact hframed.discarded hout hbegun
  · rw [run_abort hout, haborted]
    exact without_without hout isName_staging given.2
  · -- a commit ends with the removal that an abort consists of
    intro stats last e hcommit
    obtain ⟨f, -, hdelete⟩ := publish_of_commit hcommit
    rw [hoffered] at hdelete
    have he : e = f.without (stagingPath base output) := by
      rw [← outcome_delete_snd (join_staging base output), hdelete]
    rw [run_abort hout, he]
    exact without_without hout isName_staging f

/-! ### Two calls, one of them refused -/

/-- A tensor that asks for a file of another directory. -/
def astray : OutputTensor := ⟨"../a", ⟨1, 1, 1⟩, [1]⟩

/-- A name that leads elsewhere is turned away, and another tensor is staged. -/
theorem emitter_frame_astray :
    ∃ d₁ l, blank.outcome (start belowHere fresh.output) = (.ok fresh, d₁) ∧
      d₁.DirAt (stagingPath "." fresh.output) (".staging" :: l) ∧
      let given := d₁.offered belowHere fresh [astray, speck]
      Framed "." fresh.output l d₁ [astray, speck] given.2 ∧
        Discarded "." fresh.output l blank d₁ [astray, speck]
          (given.2.run (abort belowHere fresh.output)).2 := by
  have hout : outputPath "." fresh.output ≠ "" := by decide +kernel
  obtain ⟨d₁, hstart⟩ : ∃ d₁, blank.outcome (start belowHere fresh.output) = (.ok fresh, d₁) :=
    exists_start_eq hout (by decide +kernel)
  obtain ⟨l, -, hdir, hframed, hdiscarded, -⟩ := emitter_frame hout hstart [astray, speck]
  exact ⟨d₁, l, hstart, hdir, hframed, hdiscarded⟩

/-- The staging directory remains after an abort where the path to the output directory leads
through it. -/
theorem abort_leaves_staging :
    let output : OutputSettings := { dir := ".staging/a/../.." }
    let started := blank.outcome (start belowHere output)
    started.1.toOption.isSome ∧
      (started.2.run (abort belowHere output)).2.tree.find? [".staging"] =
        some .directory := by
  decide +kernel

end Disk

end FlatWeights
