import FlatWeights.Proofs.Emitter.Start

/-!
Staging one file. Whether a file can be staged depends on the names that it passes through
(`HasPlace`), which have to be names that the file system takes, with no directory in the way, and
on the buffer that it is written through (`Fits`). Then staging changes the view at the place of the
file and nowhere else. Otherwise it stops, and has changed nothing outside of the staging directory
(`Reached`). A buffer that cannot be made is noticed once the file is there, which stays empty.

Where an atomic write fails, the file that it goes to first is removed, or the directory that stands
there (`Barred`). There is one only if the path to the output directory leads through it, and the
way to the staging directory is cut then.
-/

set_option autoImplicit false

namespace FlatWeights

open Emitter

namespace Disk

variable {d e : Disk} {base : Path} {buffer : Nat} {output : OutputSettings} {l : Location}
  {name : String}

/-! ## Names that a file passes through -/

/-- The names under which a file is in the staging directory, one after the other. -/
def stagingNames (output : OutputSettings) (name : String) : List String :=
  if output.atomicWrites then [tempName name, fileName name] else [fileName name]

/-- Every file has a name that it goes to first. -/
theorem exists_first_name (output : OutputSettings) (name : String) :
    ∃ x, (stagingNames output name).head? = some x := by
  rw [stagingNames]
  split <;> exact ⟨_, rfl⟩

/-- There is a place for a file: the file system takes its names, and no directory is in the way. -/
def HasPlace (d : Disk) (base : Path) (output : OutputSettings) (l : Location) (name : String) :
    Prop :=
  ∀ x ∈ stagingNames output name, d.TakesEntry (stagingPath base output) x ∧
    d.tree.find? (x :: ".staging" :: l) ≠ some .directory

/-- A file can be staged: there is a place for it, and a buffer to write it through. -/
structure Fits (d : Disk) (base : Path) (buffer : Nat) (output : OutputSettings) (l : Location)
    (name : String) : Prop where
  place : d.HasPlace base output l name
  room : buffer < Size.bufferLimit

/-- A directory stands where an atomic write goes to first. -/
structure Barred (d : Disk) (base : Path) (output : OutputSettings) (l : Location) (name : String) :
    Prop where
  atomic : output.atomicWrites = true
  valid : validOutputName name = true
  takes : d.TakesEntry (stagingPath base output) (tempName name)
  stands : d.tree.find? (tempName name :: ".staging" :: l) = some .directory

/-- What has a place in the staging directory has one for its file. -/
theorem HasPlace.file (h : d.HasPlace base output l name) :
    d.TakesEntry (stagingPath base output) (fileName name) ∧
      d.tree.find? (fileName name :: ".staging" :: l) ≠ some .directory := by
  refine h (fileName name) ?_
  rw [stagingNames]
  split <;> simp

/-- With atomic writes it has one for the file that is written first as well. -/
theorem HasPlace.temp (h : d.HasPlace base output l name) (hatomic : output.atomicWrites = true) :
    d.TakesEntry (stagingPath base output) (tempName name) ∧
      d.tree.find? (tempName name :: ".staging" :: l) ≠ some .directory := by
  refine h (tempName name) ?_
  rw [stagingNames, if_pos hatomic]
  simp

/-- What is barred has no place. -/
theorem Barred.not_hasPlace (h : d.Barred base output l name) : ¬ d.HasPlace base output l name :=
  fun hplace => (hplace.temp h.atomic).2 h.stands

/-- The staging directory is still where it was, and nothing has changed outside of it. -/
structure Reached (base : Path) (output : OutputSettings) (l : Location) (d e : Disk) : Prop where
  staging : e.DirAt (stagingPath base output) (".staging" :: l)
  origin : e.origin (stagingPath base output) = d.origin (stagingPath base output)
  outside : ∀ k, ¬ ".staging" :: l <:+ k → e.tree.find? k = d.tree.find? k

theorem Reached.refl (h : d.DirAt (stagingPath base output) (".staging" :: l)) :
    Reached base output l d d := ⟨h, rfl, fun _ _ => rfl⟩

/-- What a run stops for is neither a file that could not take its place nor one that a directory
barred. -/
structure Aside (base : Path) (output : OutputSettings) (l : Location) (d : Disk) (stop : Stop) :
    Prop where
  noMove : ∀ name q, stop ≠ .failed (.write (base.join (stagedPath output name)) (.renameTo q))
  noWrite : ∀ name, d.Barred base output l name →
    stop ≠ .failed (.write (base.join (tempPath output name)) .createFile)

/-- Where the longer name is taken, the shorter one is too. -/
theorem TakesEntry.file (hname : validOutputName name = true)
    (h : d.TakesEntry (stagingPath base output) (tempName name)) :
    d.TakesEntry (stagingPath base output) (fileName name) := by
  have hsize : (fileName name).utf8ByteSize ≤ (tempName name).utf8ByteSize := by
    rw [tempName, String.utf8ByteSize_append, String.utf8ByteSize_append]
    omega
  have hnull : '\x00' ∈ (fileName name).toList → '\x00' ∈ (tempName name).toList := by
    intro hmem
    rw [tempName, String.toList_append, String.toList_append]
    simp [hmem]
  -- a shorter text with no other characters is taken in its place
  refine ⟨isText_mono ?_ (fun hmem => ?_) h.path, isText_mono hsize hnull h.name⟩
  · rw [Path.join_eq (isName_fileName hname).not_isAbsolute,
      Path.join_eq (isName_tempName hname).not_isAbsolute]
    simp only [String.utf8ByteSize_append]
    omega
  · rw [Path.mem_join_iff (isName_fileName hname).not_isAbsolute (by decide)] at hmem
    rw [Path.mem_join_iff (isName_tempName hname).not_isAbsolute (by decide)]
    exact hmem.imp_right hnull

/-! ## Staging -/

variable {emitter : Emitter} {pieces : List Bytes}

/-- Staging writes the file at its place, or at another place from where it is moved. What failed
there is removed. -/
theorem emitted_stage (storage : Storage (StateM Disk)) (d : Disk) (emitter : Emitter)
    (name : String) (pieces : List Bytes) :
    d.emitted emitter (stage storage name pieces) =
      if emitter.output.atomicWrites then
        match (d.outcome (storage.write (tempPath emitter.output name) pieces)) with
        | (.ok _, e) =>
          (((e.outcome (storage.rename (tempPath emitter.output name)
            (stagedPath emitter.output name))).1, emitter),
            (e.outcome (storage.rename (tempPath emitter.output name)
              (stagedPath emitter.output name))).2)
        | (.error (.failed failure), e) =>
          ((.error (.failed failure), emitter),
            (e.outcome (storage.delete (tempPath emitter.output name))).2)
        | (.error .overflow, e) => ((.error .overflow, emitter), e)
      else (((d.outcome (storage.write (stagedPath emitter.output name) pieces)).1, emitter),
        (d.outcome (storage.write (stagedPath emitter.output name) pieces)).2) := by
  rw [stage, emitted_bind_ok (emitted_get d emitter)]
  by_cases hatomic : emitter.output.atomicWrites = true
  · simp only [hatomic, if_true]
    rw [emitted_bind_ok (emitted_attempt d emitter _)]
    obtain ⟨result, e⟩ := d.outcome (storage.write (tempPath emitter.output name) pieces)
    cases result with
    | ok a => rfl
    | error stop => cases stop <;> rfl
  · simp only [hatomic]
    rfl

section Write

variable {p : Path} {x : String} (h : d.DirAt (stagingPath base output) (".staging" :: l))
  (hout : outputPath base output ≠ "") (hx : Path.IsName x)
  (hfull : base.join p = (stagingPath base output).join x)

include h hout hx hfull

/-- A file whose place is free is written through its buffer. -/
theorem outcome_write_taken (pieces : List Bytes) (hbuffer : buffer < Size.bufferLimit)
    (htakes : d.TakesEntry (stagingPath base output) x)
    (hfree : d.tree.find? (x :: ".staging" :: l) ≠ some .directory) :
    ∃ e, d.outcome ((Storage.below base buffer).write p pieces) = (.ok (), e) ∧
      Became (stagingPath base output) d e (Function.update d.tree.find? (x :: ".staging" :: l)
        (some (.file pieces.flatten))) := by
  obtain ⟨hgranted, hbecame⟩ := create_fill h hx htakes hfree pieces.flatten
  refine ⟨_, ?_, hbecame⟩
  rw [outcome_write h isName_staging hout hx hfull, ← stagingPath, if_pos hgranted, filled,
    if_pos hbuffer]

/-- A file whose place is free is created, and stays empty if its buffer cannot be made. -/
theorem outcome_write_stopped (pieces : List Bytes) (hbuffer : Size.bufferLimit ≤ buffer)
    (htakes : d.TakesEntry (stagingPath base output) x)
    (hfree : d.tree.find? (x :: ".staging" :: l) ≠ some .directory) :
    ∃ e, d.outcome ((Storage.below base buffer).write p pieces) = (.error .overflow, e) ∧
      Became (stagingPath base output) d e (Function.update d.tree.find? (x :: ".staging" :: l)
        (some (.file []))) := by
  obtain ⟨hgranted, hbecame⟩ := create_taken h hx htakes hfree
  refine ⟨_, ?_, hbecame⟩
  rw [outcome_write h isName_staging hout hx hfull, ← stagingPath, if_pos hgranted, filled,
    if_neg (Nat.not_lt.2 hbuffer)]

/-- To write fails where the name is not taken or a directory stands there, and changes nothing. -/
theorem outcome_write_refused (hno : d.TakesEntry (stagingPath base output) x →
      d.tree.find? (x :: ".staging" :: l) = some .directory) :
    d.outcome ((Storage.below base buffer).write p pieces) =
      (.error (.failed (.write ((stagingPath base output).join x) .createFile)), d) := by
  rw [outcome_write h isName_staging hout hx hfull, ← stagingPath, create_refused h hx hno]
  rfl

end Write

/-- Where a name is not taken there is nothing to be deleted. -/
theorem outcome_delete_untaken {dir p : Path} {s : Location} {x : String} (h : d.DirAt dir s)
    (hx : Path.IsName x) (hfull : base.join p = dir.join x) (hno : ¬ d.TakesEntry dir x) :
    (d.outcome ((Storage.below base buffer).delete p)).2 = d := by
  have hkind : d.kind? (dir.join x) ≠ some .directory := by
    rw [kind?]
    cases hfound : d.find? (dir.join x) with
    | none => simp
    | some found => exact absurd ((find?_join_eq_some_iff h hx).1 hfound).1 hno
  have hremove : d.removeFile (dir.join x) = (false, d) := by
    rw [removeFile]
    cases hk : d.locate (dir.join x) with
    | error astray => rfl
    | ok k => exact absurd ((h.locate_join hx).1 hk).1 hno
  rw [outcome_delete hfull, if_neg hkind, hremove]

section Stage

variable (h : d.DirAt (stagingPath base emitter.output) (".staging" :: l))
  (hout : outputPath base emitter.output ≠ "") (hname : validOutputName name = true)

include h hout hname

/-- The data of an atomic write is first written to a file of its own, next to which the place of
the file is as it was. -/
theorem write_temp_taken (pieces : List Bytes) (hbuffer : buffer < Size.bufferLimit)
    (htemp : d.TakesEntry (stagingPath base emitter.output) (tempName name))
    (hfree : d.tree.find? (tempName name :: ".staging" :: l) ≠ some .directory) :
    ∃ e, d.outcome ((Storage.below base buffer).write (tempPath emitter.output name) pieces) =
        (.ok (), e) ∧
      Became (stagingPath base emitter.output) d e (Function.update d.tree.find?
        (tempName name :: ".staging" :: l) (some (.file pieces.flatten))) ∧
      e.DirAt (stagingPath base emitter.output) (".staging" :: l) ∧
      e.tree.find? (tempName name :: ".staging" :: l) = some (.file pieces.flatten) ∧
      e.tree.find? (fileName name :: ".staging" :: l) =
        d.tree.find? (fileName name :: ".staging" :: l) := by
  obtain ⟨e, hwrite, hbecame⟩ := outcome_write_taken h hout (isName_tempName hname)
    (join_tempPath base emitter.output name) pieces hbuffer htemp hfree
  refine ⟨e, hwrite, hbecame, h.became_file hbecame hfree, ?_, ?_⟩
  · rw [hbecame.view, Function.update_self]
  · rw [hbecame.view, Function.update_of_ne]
    intro heq
    exact tempName_ne_fileName hname (List.cons.inj heq).1.symm

/-- A file that fits is staged, under its name alone. -/
theorem stage_of_fits (pieces : List Bytes) (hfits : d.Fits base buffer emitter.output l name)
    (hclean : ∀ content, d.tree.find? (tempName name :: ".staging" :: l) ≠ some (.file content)) :
    ∃ e, d.emitted emitter (stage (Storage.below base buffer) name pieces) =
      ((.ok (), emitter), e) ∧
      Became (stagingPath base emitter.output) d e
        (Function.update d.tree.find? (fileName name :: ".staging" :: l)
          (some (.file pieces.flatten))) := by
  obtain ⟨htakes, hfree⟩ := hfits.place.file
  rw [emitted_stage]
  by_cases hatomic : emitter.output.atomicWrites = true
  · obtain ⟨htemp, htempfree⟩ := hfits.place.temp hatomic
    -- nothing was where the data goes first, so nothing is left there once the file is moved
    have hnone : d.tree.find? (tempName name :: ".staging" :: l) = none := by
      cases hfound : d.tree.find? (tempName name :: ".staging" :: l) with
      | none => rfl
      | some found =>
        cases found with
        | file content => exact absurd hfound (hclean content)
        | directory => exact absurd hfound htempfree
    obtain ⟨e, hwrite, hbecame, hdir, hfile, hsame⟩ :=
      write_temp_taken h hout hname pieces hfits.room htemp htempfree
    have hplaces : tempName name :: ".staging" :: l ≠ fileName name :: ".staging" :: l := by
      intro heq
      exact tempName_ne_fileName hname (List.cons.inj heq).1
    rw [← hsame] at hfree
    obtain ⟨hgranted, hmoved⟩ := rename_file hdir (isName_tempName hname) hdir
      (isName_fileName hname) (hbecame.limits.takesEntry htemp) hfile
      (hbecame.limits.takesEntry htakes) hfree hplaces
    refine ⟨_, ?_, hbecame.limits.trans hmoved.limits, hmoved.origin.trans hbecame.origin, ?_⟩
    · rw [if_pos hatomic, hwrite]
      simp only
      rw [outcome_rename (join_tempPath base emitter.output name)
        (join_stagedPath base emitter.output hname), if_pos hgranted]
    · rw [hmoved.view, hbecame.view, Function.update_idem, ← hnone, Function.update_eq_self]
  · rw [if_neg hatomic]
    obtain ⟨e, hwrite, hbecame⟩ := outcome_write_taken h hout (isName_fileName hname)
      (join_stagedPath base emitter.output hname) pieces hfits.room htakes hfree
    rw [hwrite]
    exact ⟨e, rfl, hbecame⟩

/-- Where no buffer can be made, a file whose first name is free stays empty under that name. -/
theorem stage_of_unbuffered (pieces : List Bytes) (hbuffer : Size.bufferLimit ≤ buffer)
    {x : String} (hfirst : (stagingNames emitter.output name).head? = some x)
    (htakes : d.TakesEntry (stagingPath base emitter.output) x)
    (hfree : d.tree.find? (x :: ".staging" :: l) ≠ some .directory) :
    ∃ e, d.emitted emitter (stage (Storage.below base buffer) name pieces) =
        ((.error .overflow, emitter), e) ∧ Reached base emitter.output l d e := by
  have hreached : ∀ e, Became (stagingPath base emitter.output) d e (Function.update d.tree.find?
      (x :: ".staging" :: l) (some (.file []))) → Reached base emitter.output l d e := by
    intro e hbecame
    refine ⟨h.became_file hbecame hfree, hbecame.origin, fun k hk => ?_⟩
    rw [hbecame.view, Function.update_of_ne]
    rintro rfl
    exact hk (List.suffix_cons _ _)
  rw [emitted_stage]
  rw [stagingNames] at hfirst
  by_cases hatomic : emitter.output.atomicWrites = true
  · rw [if_pos hatomic] at hfirst ⊢
    obtain rfl : tempName name = x := Option.some.inj hfirst
    obtain ⟨e, hwrite, hbecame⟩ := outcome_write_stopped h hout (isName_tempName hname)
      (join_tempPath base emitter.output name) pieces hbuffer htakes hfree
    rw [hwrite]
    exact ⟨e, rfl, hreached e hbecame⟩
  · rw [if_neg hatomic] at hfirst ⊢
    obtain rfl : fileName name = x := Option.some.inj hfirst
    obtain ⟨e, hwrite, hbecame⟩ := outcome_write_stopped h hout (isName_fileName hname)
      (join_stagedPath base emitter.output hname) pieces hbuffer htakes hfree
    rw [hwrite]
    exact ⟨e, rfl, hreached e hbecame⟩

/-- A directory that bars an atomic write is removed, in place of a part of the file. -/
theorem stage_of_barred (pieces : List Bytes) (hbarred : d.Barred base emitter.output l name) :
    d.emitted emitter (stage (Storage.below base buffer) name pieces) =
      ((.error (.failed (.write (base.join (tempPath emitter.output name)) .createFile)), emitter),
        d.without (base.join (tempPath emitter.output name))) := by
  have hdelete : d.outcome ((Storage.below base buffer).delete _) = _ :=
    outcome_delete_entry h (isName_tempName hname) hbarred.takes
      (join_tempPath base emitter.output name) (by rw [hbarred.stands]; rfl)
  rw [emitted_stage, if_pos hbarred.atomic, outcome_write_refused h hout (isName_tempName hname)
    (join_tempPath base emitter.output name) fun _ => hbarred.stands]
  simp only [hdelete, ← join_tempPath base emitter.output name]

/-- Where the name that an atomic write goes to first is not taken, nothing happens. -/
theorem stage_of_untaken (pieces : List Bytes) (hatomic : emitter.output.atomicWrites = true)
    (hno : ¬ d.TakesEntry (stagingPath base emitter.output) (tempName name)) :
    d.emitted emitter (stage (Storage.below base buffer) name pieces) =
      ((.error (.failed (.write (base.join (tempPath emitter.output name)) .createFile)), emitter),
        d) := by
  have hdelete : (d.outcome ((Storage.below base buffer).delete _)).2 = d :=
    outcome_delete_untaken h (isName_tempName hname) (join_tempPath base emitter.output name) hno
  rw [emitted_stage, if_pos hatomic, outcome_write_refused h hout (isName_tempName hname)
    (join_tempPath base emitter.output name) fun htakes => absurd htakes hno]
  simp only [hdelete, ← join_tempPath base emitter.output name]

/-- Where the name of the file belongs to a directory, the data is written, but it does not get that
name. -/
theorem stage_of_occupied (pieces : List Bytes) (hbuffer : buffer < Size.bufferLimit)
    (hatomic : emitter.output.atomicWrites = true)
    (htemp : d.TakesEntry (stagingPath base emitter.output) (tempName name))
    (hfree : d.tree.find? (tempName name :: ".staging" :: l) ≠ some .directory)
    (hoccupied : d.tree.find? (fileName name :: ".staging" :: l) = some .directory) :
    ∃ e, d.emitted emitter (stage (Storage.below base buffer) name pieces) =
        ((.error (.failed (.write (base.join (tempPath emitter.output name))
          (.renameTo (base.join (stagedPath emitter.output name))))), emitter), e) ∧
      Reached base emitter.output l d e := by
  obtain ⟨e, hwrite, hbecame, hdir, hfile, hsame⟩ :=
    write_temp_taken h hout hname pieces hbuffer htemp hfree
  have hrefused := rename_refused hdir (isName_tempName hname) hdir (isName_fileName hname)
    (hbecame.limits.takesEntry htemp) hfile fun _ => hsame.trans hoccupied
  refine ⟨e, ?_, hdir, hbecame.origin, fun k hk => ?_⟩
  · rw [emitted_stage, if_pos hatomic, hwrite]
    simp only
    rw [outcome_rename (join_tempPath base emitter.output name)
      (join_stagedPath base emitter.output hname), hrefused, join_tempPath base emitter.output name,
      join_stagedPath base emitter.output hname]
    rfl
  · rw [hbecame.view, Function.update_of_ne]
    rintro rfl
    exact hk (List.suffix_cons _ _)

/-- Where writes are not atomic, a file without a place leaves the disk as it is. -/
theorem stage_of_direct_not_hasPlace (pieces : List Bytes)
    (hatomic : ¬ emitter.output.atomicWrites = true)
    (hplace : ¬ d.HasPlace base emitter.output l name) :
    d.emitted emitter (stage (Storage.below base buffer) name pieces) =
      ((.error (.failed (.write (base.join (stagedPath emitter.output name)) .createFile)),
        emitter), d) := by
  have hno : d.TakesEntry (stagingPath base emitter.output) (fileName name) →
      d.tree.find? (fileName name :: ".staging" :: l) = some .directory := by
    intro htakes
    by_contra hfree
    refine hplace fun x hx => ?_
    rw [stagingNames, if_neg hatomic, List.mem_singleton] at hx
    subst hx
    exact ⟨htakes, hfree⟩
  rw [emitted_stage, if_neg hatomic, outcome_write_refused h hout (isName_fileName hname)
    (join_stagedPath base emitter.output hname) hno, join_stagedPath base emitter.output hname]

/-- A file that does not fit is not staged. -/
theorem stage_of_not_fits (pieces : List Bytes)
    (hfits : ¬ d.Fits base buffer emitter.output l name) :
    ∃ stop e, d.emitted emitter (stage (Storage.below base buffer) name pieces) =
        ((.error stop, emitter), e) ∧
      (Reached base emitter.output l d e ∧ Aside base emitter.output l d stop ∨
        d.Barred base emitter.output l name ∧
          stop = .failed (.write (base.join (tempPath emitter.output name)) .createFile) ∧
          e = d.without (base.join (tempPath emitter.output name))) := by
  by_cases hatomic : emitter.output.atomicWrites = true
  swap
  · have haside : ∀ stop, (∀ name q, stop ≠ .failed (.write (base.join (stagedPath emitter.output
        name)) (.renameTo q))) → Aside base emitter.output l d stop :=
      fun stop hmove => ⟨hmove, fun other hbarred => absurd hbarred.atomic hatomic⟩
    by_cases hplace : d.HasPlace base emitter.output l name
    · obtain ⟨htakes, hfree⟩ := hplace.file
      obtain ⟨e, hstage, hreached⟩ := stage_of_unbuffered h hout hname pieces
        (Nat.not_lt.1 fun hroom => hfits ⟨hplace, hroom⟩)
        (by rw [stagingNames, if_neg hatomic]; rfl) htakes hfree
      exact ⟨_, e, hstage, .inl ⟨hreached, haside _ (by simp)⟩⟩
    · exact ⟨_, d, stage_of_direct_not_hasPlace h hout hname pieces hatomic hplace,
        .inl ⟨.refl h, haside _ (by simp)⟩⟩
  by_cases htemp : d.TakesEntry (stagingPath base emitter.output) (tempName name)
  swap
  · refine ⟨_, d, stage_of_untaken h hout hname pieces hatomic htemp,
      .inl ⟨.refl h, fun other q => by simp, fun other hbarred heq => ?_⟩⟩
    obtain rfl := tempPath_injective (Failure.write.inj (Stop.failed.inj heq)).1
    exact htemp hbarred.takes
  by_cases hstands : d.tree.find? (tempName name :: ".staging" :: l) = some .directory
  · have hbarred : d.Barred base emitter.output l name := ⟨hatomic, hname, htemp, hstands⟩
    exact ⟨_, _, stage_of_barred h hout hname pieces hbarred, .inr ⟨hbarred, rfl, rfl⟩⟩
  by_cases hbuffer : buffer < Size.bufferLimit
  swap
  · obtain ⟨e, hstage, hreached⟩ := stage_of_unbuffered h hout hname pieces (Nat.not_lt.1 hbuffer)
      (by rw [stagingNames, if_pos hatomic]; rfl) htemp hstands
    exact ⟨_, e, hstage, .inl ⟨hreached, by simp, by simp⟩⟩
  · have hoccupied : d.tree.find? (fileName name :: ".staging" :: l) = some .directory := by
      by_contra hfree
      refine hfits ⟨fun x hx => ?_, hbuffer⟩
      rw [stagingNames, if_pos hatomic, List.mem_cons, List.mem_singleton] at hx
      rcases hx with rfl | rfl
      · exact ⟨htemp, hstands⟩
      · exact ⟨TakesEntry.file hname htemp, hfree⟩
    obtain ⟨e, hstage, hreached⟩ :=
      stage_of_occupied h hout hname pieces hbuffer hatomic htemp hstands hoccupied
    refine ⟨_, e, hstage, .inl ⟨hreached, fun other q heq => ?_, fun other _ => by simp⟩⟩
    exact stagedPath_ne_tempPath (Failure.write.inj (Stop.failed.inj heq)).1.symm

end Stage

end Disk

end FlatWeights
