import FlatWeights.Proofs.Disk.MakeDirs
import FlatWeights.Proofs.Disk.Remove

/-!
The places of a run on a disk. The files of a run are entries of its staging directory and then of
the output directory, under names that no path can pass through: `fileName` and the name of the
file that an atomic write goes to first. The second half says what the operations of the storage
come to at these places.
-/

set_option autoImplicit false

namespace FlatWeights

namespace Emitter

variable {base : Path} {output : OutputSettings} {name other : String}

/-! ## Names of files -/

/-- The name of the file that an atomic write goes to first. -/
def tempName (name : String) : String := "." ++ fileName name ++ ".tmp"

/-- The staging directory goes by a name. -/
theorem isName_staging : Path.IsName ".staging" := by
  constructor <;> decide

/-- A valid name is not hidden. -/
theorem head_ne_dot (h : validOutputName name = true) : name.toList.head? ≠ some '.' := by
  intro hdot
  simp [validOutputName, hdot] at h

/-- Nothing that has a meaning in a path is in a name. -/
theorem notMem_of_valid {c : Char} (hc : c ∈ ['/', '\\', '\x00'])
    (h : validOutputName name = true) : c ∉ name.toList := by
  intro hmem
  have hany : (name.toList.any fun c => c == '/' || c == '\\' || c == '\x00') = true := by
    refine List.any_eq_true.2 ⟨c, hmem, ?_⟩
    simpa [or_assoc] using hc
  simp [validOutputName, hany] at h

/-- A valid name has no slash. -/
theorem slash_notMem (h : validOutputName name = true) : '/' ∉ name.toList :=
  notMem_of_valid (by decide) h

theorem toList_fileName (name : String) :
    (fileName name).toList = name.toList ++ ['.', 'b', 'i', 'n'] := by
  have hending : ".bin".toList = ['.', 'b', 'i', 'n'] := rfl
  rw [fileName, String.toList_append, hending]

theorem toList_tempName (name : String) :
    (tempName name).toList =
      '.' :: (name.toList ++ ['.', 'b', 'i', 'n', '.', 't', 'm', 'p']) := by
  rw [tempName, String.toList_append, String.toList_append, toList_fileName]
  simp

/-- Names that differ have files that differ. -/
theorem fileName_injective : Function.Injective fileName := by
  intro name other h
  have h := congrArg String.toList h
  rw [toList_fileName, toList_fileName] at h
  exact String.toList_inj.1 (List.append_cancel_right h)

/-- The name of a file is that of an entry unless it has a slash, whatever else is in it. -/
theorem isName_fileName_of_noSlash (h : '/' ∉ (fileName name).toList) :
    Path.IsName (fileName name) := by
  have hne : ∀ text : String, text.toList.length < 4 → fileName name ≠ text := by
    rintro text hlen rfl
    rw [toList_fileName, List.length_append] at hlen
    have hending : ['.', 'b', 'i', 'n'].length = 4 := rfl
    omega
  exact ⟨h, hne _ (by decide), hne _ (by decide), hne _ (by decide)⟩

/-- The file of a valid name is an entry of its directory. -/
theorem isName_fileName (h : validOutputName name = true) : Path.IsName (fileName name) := by
  apply isName_fileName_of_noSlash
  rw [toList_fileName]
  simp [slash_notMem h]

/-- So is the file that is written first. -/
theorem isName_tempName (h : validOutputName name = true) : Path.IsName (tempName name) := by
  have hne : ∀ text : String, text.toList.length < 4 → tempName name ≠ text := by
    rintro text hlen rfl
    rw [toList_tempName] at hlen
    simp at hlen
    omega
  refine ⟨?_, hne _ (by decide), hne _ (by decide), hne _ (by decide)⟩
  rw [toList_tempName]
  simp [slash_notMem h]

/-- No file is hidden but those that atomic writes go to first. -/
theorem tempName_ne_fileName (h : validOutputName other = true) :
    tempName name ≠ fileName other := by
  intro heq
  have hhead := congrArg (fun text : String => text.toList.head?) heq
  simp only [toList_tempName, toList_fileName, List.head?_cons] at hhead
  cases hother : other.toList with
  | nil => simp [validOutputName, String.toList_eq_nil_iff.1 hother] at h
  | cons c text =>
    rw [hother] at hhead
    refine head_ne_dot h ?_
    rw [hother]
    exact hhead.symm

/-! ## Paths -/

/-- The path that leads to the output directory. -/
def outputPath (base : Path) (output : OutputSettings) : Path := base.join output.dir

/-- The path that leads to the staging directory. -/
def stagingPath (base : Path) (output : OutputSettings) : Path :=
  (outputPath base output).join ".staging"

/-- The staging directory lies in the output directory. -/
theorem join_staging (base : Path) (output : OutputSettings) :
    base.join (staging output) = stagingPath base output :=
  Path.join_join isName_staging.not_isAbsolute

/-- The file of a name lies in the output directory. -/
theorem join_finalPath (base : Path) (output : OutputSettings)
    (h : validOutputName name = true) :
    base.join (finalPath output name) = (outputPath base output).join (fileName name) :=
  Path.join_join (isName_fileName h).not_isAbsolute

/-- A file is staged in the staging directory. -/
theorem join_stagedPath (base : Path) (output : OutputSettings)
    (h : validOutputName name = true) :
    base.join (stagedPath output name) = (stagingPath base output).join (fileName name) := by
  rw [stagedPath, Path.join_join (isName_fileName h).not_isAbsolute, join_staging]

theorem isAbsolute_tempName (name : String) : Path.isAbsolute (tempName name) = false := by
  rw [Path.isAbsolute, toList_tempName]
  rfl

/-- The file that is written first lies in the staging directory. -/
theorem join_tempPath (base : Path) (output : OutputSettings) (name : String) :
    base.join (tempPath output name) = (stagingPath base output).join (tempName name) := by
  rw [tempPath, ← tempName, Path.join_join (isAbsolute_tempName name), join_staging]

/-- Where a file goes first says which file it is. -/
theorem tempPath_injective
    (h : base.join (tempPath output name) = base.join (tempPath output other)) : name = other := by
  rw [join_tempPath, join_tempPath, Path.join_eq (isAbsolute_tempName name),
    Path.join_eq (isAbsolute_tempName other)] at h
  have hlist := congrArg String.toList h
  rw [String.toList_append, String.toList_append (t := tempName other), toList_tempName,
    toList_tempName] at hlist
  have hnames := (List.cons.inj (List.append_cancel_left hlist)).2
  exact String.toList_inj.1 (List.append_cancel_right hnames)

/-- Where a file waits for the end of the run says which file it is. -/
theorem stagedPath_injective (hname : validOutputName name = true)
    (hother : validOutputName other = true)
    (h : base.join (stagedPath output name) = base.join (stagedPath output other)) :
    name = other := by
  rw [join_stagedPath base output hname, join_stagedPath base output hother,
    Path.join_eq (isName_fileName hname).not_isAbsolute,
    Path.join_eq (isName_fileName hother).not_isAbsolute] at h
  have hlist := congrArg String.toList h
  simp only [String.toList_append] at hlist
  exact fileName_injective (String.toList_inj.1 (List.append_cancel_left hlist))

/-- No file waits for the end of the run where another one goes first. -/
theorem stagedPath_ne_tempPath :
    base.join (stagedPath output name) ≠ base.join (tempPath output other) := by
  obtain ⟨front, hfront⟩ := Path.exists_join_eq (staging output) (fileName name)
  obtain ⟨start, hstart⟩ := Path.exists_join_eq base (stagedPath output name)
  intro h
  rw [join_tempPath, Path.join_eq (isAbsolute_tempName other), hstart, stagedPath, hfront] at h
  have hbin : (fileName name).toList.getLast? = some 'n' := by
    rw [toList_fileName]
    simp
  have htmp : (tempName other).toList.getLast? = some 'p' := by
    rw [toList_tempName]
    simp [List.getLast?_cons]
  have hlast := congrArg (fun text : String => text.toList.getLast?) h
  simp [hbin, htmp] at hlast

end Emitter

namespace Disk

open Emitter

variable {d e : Disk} {base p q full dir : Path} {buffer : Nat} {l s : Location}
  {x : String}

/-! ## Answers of the storage -/

/-- To look whether something is stored changes nothing. -/
theorem outcome_contains (hfull : base.join p = full) :
    d.outcome ((Storage.below base buffer).contains p) = (.ok (d.kind? full).isSome, d) := by
  subst hfull
  rfl

/-- Directories are made by the disk, and where they are not granted a write has failed. -/
theorem outcome_createDirs (hfull : base.join p = full) :
    d.outcome ((Storage.below base buffer).createDirs p) =
      (if (d.run (FileSystem.makeDirAll full)).1 then .ok ()
        else .error (.failed (.write full .createDirectories)),
        (d.run (FileSystem.makeDirAll full)).2) := by
  subst hfull
  exact outcome_require _ _

/-- A file is moved by the disk, and where that is refused a write has failed. -/
theorem outcome_rename {fullTarget : Path} (hfull : base.join p = full)
    (htarget : base.join q = fullTarget) :
    d.outcome ((Storage.below base buffer).rename p q) =
      (if (d.rename full fullTarget).1 then .ok ()
        else .error (.failed (.write full (.renameTo fullTarget))),
        (d.rename full fullTarget).2) := by
  subst hfull
  subst htarget
  have hrequire := outcome_require (d := d) (FileSystem.rename (base.join p) (base.join q))
    (.write (base.join p) (.renameTo (base.join q)))
  rw [run_rename] at hrequire
  exact hrequire

/-- A directory is removed with what is in it, and anything else as a file. -/
theorem outcome_delete (hfull : base.join p = full) :
    d.outcome ((Storage.below base buffer).delete p) =
      if d.kind? full = some .directory then
        (if (d.removeDir full).1 then .ok ()
          else .error (.failed (.write full .deleteDirectory)), (d.removeDir full).2)
      else
        (if (d.removeFile full).1 then .ok ()
          else .error (.failed (.write full .deleteFile)), (d.removeFile full).2) := by
  subst hfull
  have hdir : (Storage.below base buffer).delete p =
      (Run.always (FileSystem.isDir (base.join p)) >>= fun directory =>
        if directory then
          Storage.require (FileSystem.removeDir (base.join p))
            (.write (base.join p) .deleteDirectory)
        else Storage.require (FileSystem.removeFile (base.join p))
          (.write (base.join p) .deleteFile) : Run (StateM Disk) Unit) := rfl
  rw [hdir, outcome_bind_ok (outcome_always d _)]
  by_cases h : d.kind? (base.join p) = some .directory
  · simp only [run_isDir, h, beq_self_eq_true, if_true]
    exact outcome_require _ _
  · simp only [run_isDir, h, beq_iff_eq, if_false]
    exact outcome_require _ _

/-- An entry of a directory is removed, whatever it is. -/
theorem outcome_delete_entry (h : d.DirAt dir l) (hx : Path.IsName x)
    (htakes : d.TakesEntry dir x) (hfull : base.join p = dir.join x)
    (hstands : (d.tree.find? (x :: l)).isSome) :
    d.outcome ((Storage.below base buffer).delete p) = (.ok (), d.without (dir.join x)) := by
  rw [outcome_delete hfull, without, kind?_join h hx htakes]
  obtain ⟨found, hfound⟩ := Option.isSome_iff_exists.1 hstands
  rw [hfound]
  cases found with
  | file content => simp [removeFile_eq h hx htakes hfound]
  | directory =>
    have hdir := dirAt_join h hx htakes hfound
    simp [removeDir_eq hdir (Path.endsInName_join h.ne_empty hx)]

/-- Whatever stands at an entry of a directory is removed, if anything does. -/
theorem outcome_clear (hdir : dir ≠ "") (hx : Path.IsName x) (hfull : base.join p = dir.join x) :
    d.outcome (do if ← (Storage.below base buffer).contains p then
      (Storage.below base buffer).delete p) =
      (.ok (), d.without (dir.join x)) := by
  rw [outcome_bind_ok (outcome_contains hfull)]
  cases hfound : d.find? (dir.join x) with
  | none =>
    have hnone : d.kind? (dir.join x) = none := by rw [kind?, hfound]; rfl
    rw [without, hnone]
    rfl
  | some found =>
    obtain ⟨k, hk, hstands⟩ := (find?_eq_some_iff_of_join hdir hx).1 hfound
    obtain ⟨hpath, hname, l, hl, hdirectory, rfl⟩ := (locate_join_eq_ok_iff hdir hx).1 hk
    have hsome : (d.kind? (dir.join x)).isSome = true := by rw [kind?, hfound]; rfl
    rw [if_pos hsome]
    exact outcome_delete_entry ⟨hl, hdirectory⟩ hx ⟨hpath, hname⟩ hfull (by rw [hstands]; rfl)

/-- Deleting what is stored at a path leaves the disk without it, whatever the answer is. -/
theorem outcome_delete_snd (hfull : base.join p = full) :
    (d.outcome ((Storage.below base buffer).delete p)).2 = d.without full := by
  rw [outcome_delete hfull, without]
  cases hkind : d.kind? full with
  | none =>
    rw [if_neg (by simp), removeFile]
    cases hfound : d.locate full with
    | error astray => rfl
    | ok k =>
      -- a file that is found here would be seen by `kind?`
      have hnone : d.tree.find? k = none := by
        simpa [kind?, find?, hfound] using hkind
      simp only [hnone]
  | some kind => cases kind <;> rfl

/-- Whatever is staged is discarded, however often that is asked for. -/
theorem run_abort {output : OutputSettings} (hout : outputPath base output ≠ "") (d : Disk) :
    d.run (abort (Storage.below base buffer) output) =
      ((), d.without (stagingPath base output)) := by
  have habort : d.run (abort (Storage.below base buffer) output) = ((), (d.outcome (do
      if ← (Storage.below base buffer).contains (staging output) then
        (Storage.below base buffer).delete (staging output))).2) := rfl
  rw [habort, outcome_clear hout isName_staging (join_staging base output)]
  rfl

/-- A path to the staging directory begins where that to the output directory does. -/
theorem origin_staging {output : OutputSettings} (hout : outputPath base output ≠ "") (d : Disk) :
    d.origin (stagingPath base output) = d.origin (outputPath base output) :=
  origin_join hout isName_staging d

/-- Where there is a way to the staging directory, there is one to the output directory. -/
theorem DirAt.out {output : OutputSettings}
    (h : d.DirAt (stagingPath base output) (".staging" :: l)) (hout : outputPath base output ≠ "") :
    d.DirAt (outputPath base output) l ∧ d.TakesEntry (outputPath base output) ".staging" := by
  obtain ⟨place, hdir, heq, htakes⟩ := h.of_join hout isName_staging
  obtain rfl : l = place := (List.cons.inj heq).2
  exact ⟨hdir, htakes⟩

/-- What is removed where there is a way to the staging directory is that directory. It remains,
empty, if the path to the output directory leads through what was in it. -/
theorem DirAt.cleared_staging {output : OutputSettings}
    (h : d.DirAt (stagingPath base output) (".staging" :: l)) (hout : outputPath base output ≠ "") :
    Cleared (".staging" :: l) d (d.without (stagingPath base output)) ∧
      ((d.without (stagingPath base output)).tree.find? (".staging" :: l) = none ∨
        (d.without (stagingPath base output)).tree.find? (".staging" :: l) = some .directory ∧
          ∃ k ∈ d.visits (outputPath base output),
            ".staging" :: l <:+ k ∧ k ≠ ".staging" :: l) := by
  obtain ⟨hdir, htakes⟩ := h.out hout
  exact without_cleared hdir isName_staging htakes

/-! ## Writing a file -/

/-- The directory of a file is made if nothing stands there. -/
def withParent (d : Disk) (dir : Path) : Bool × Disk :=
  if (d.kind? dir).isSome then (true, d) else d.run (FileSystem.makeDirAll dir)

/-- To make what leads to a file only makes directories on the way. -/
theorem withParent_grown (d : Disk) (dir : Path) : Grown dir d (d.withParent dir).2 := by
  rw [withParent]
  split
  · exact .refl dir d
  · exact makeDirsUpTo_grown d _ dir

/-- A file that was created is filled, unless the buffer for that cannot be made. -/
def filled (d : Disk) (buffer : Nat) (p : Path) (data : Bytes) : Except Stop Unit × Disk :=
  if buffer < Size.bufferLimit then (.ok (), d.fill p data) else (.error .overflow, d)

/-- A file is filled through a buffer. -/
theorem outcome_fill (d : Disk) (buffer : Nat) (p : Path) (data : Bytes) :
    d.outcome (do
      Storage.makeBuffer buffer
      Run.always (FileSystem.fill p data)) = d.filled buffer p data := by
  rw [filled]
  split
  · rename_i hbuffer
    rw [Storage.makeBuffer_of_lt hbuffer]
    rfl
  · rename_i hbuffer
    rw [Storage.makeBuffer_of_le (Nat.not_lt.1 hbuffer)]
    rfl

/-- Writing a file comes to making its directory, creating the file and filling it. -/
theorem outcome_write_eq (hx : Path.IsName x) (hdir : dir ≠ "") {y : String} (hy : Path.IsName y)
    (hfull : base.join p = (dir.join x).join y) (pieces : List Bytes) :
    d.outcome ((Storage.below base buffer).write p pieces) =
      if (d.withParent (dir.join x)).1 then
        if ((d.withParent (dir.join x)).2.create ((dir.join x).join y)).1 then
          ((d.withParent (dir.join x)).2.create ((dir.join x).join y)).2.filled buffer
            ((dir.join x).join y) pieces.flatten
        else (.error (.failed (.write ((dir.join x).join y) .createFile)),
          ((d.withParent (dir.join x)).2.create ((dir.join x).join y)).2)
      else (.error (.failed (.write (dir.join x) .parentDirectories)),
        (d.withParent (dir.join x)).2) := by
  rw [← hfull]
  have hparent : (base.join p).parent? = some (dir.join x) := by
    rw [hfull, Path.parent?_join_join hdir hx hy]
  -- what comes before the file is one step, and it stops the write if it is refused
  have hmade : d.outcome (do
      if !(← Run.always (FileSystem.exists (dir.join x))) then
        Storage.require (FileSystem.makeDirAll (dir.join x))
          (.write (dir.join x) .parentDirectories)) =
      (if (d.withParent (dir.join x)).1 then .ok ()
        else .error (.failed (.write (dir.join x) .parentDirectories)),
        (d.withParent (dir.join x)).2) := by
    rw [outcome_bind_ok (outcome_always d _), run_exists, withParent]
    cases (d.kind? (dir.join x)).isSome with
    | true => rfl
    | false =>
      simp only [Bool.not_false, Bool.false_eq_true, if_true, if_false]
      exact outcome_require (FileSystem.makeDirAll (dir.join x)) _
  have hwrite : (Storage.below base buffer).write p pieces = (do
      (do if !(← Run.always (FileSystem.exists (dir.join x))) then
            Storage.require (FileSystem.makeDirAll (dir.join x))
              (.write (dir.join x) .parentDirectories))
      Storage.require (FileSystem.create (base.join p)) (.write (base.join p) .createFile)
      Storage.makeBuffer buffer
      Run.always (FileSystem.fill (base.join p) pieces.flatten) : Run (StateM Disk) Unit) := by
    simp only [Storage.below, hparent, bind_assoc]
    refine congrArg _ (funext fun stands => ?_)
    cases stands with
    | true => rw [if_neg (by simp), if_neg (by simp), pure_bind]
    | false => rfl
  rw [hwrite, outcome_bind, hmade]
  by_cases hgranted : (d.withParent (dir.join x)).1 = true
  · have hcreate := outcome_require (d := (d.withParent (dir.join x)).2)
      (FileSystem.create (base.join p)) (.write (base.join p) .createFile)
    simp only [hgranted, if_true]
    rw [outcome_bind, hcreate, run_create]
    by_cases hcreated : ((d.withParent (dir.join x)).2.create (base.join p)).1 = true
    · simp only [hcreated, if_true]
      exact outcome_fill _ buffer (base.join p) pieces.flatten
    · simp [hcreated]
  · simp [hgranted]

/-- Where the directory of a file stands, writing comes to creating the file and filling it. -/
theorem outcome_write (h : d.DirAt (dir.join x) s) (hx : Path.IsName x) (hdir : dir ≠ "")
    {y : String} (hy : Path.IsName y) (hfull : base.join p = (dir.join x).join y)
    (pieces : List Bytes) :
    d.outcome ((Storage.below base buffer).write p pieces) =
      if (d.create ((dir.join x).join y)).1 then
        (d.create ((dir.join x).join y)).2.filled buffer ((dir.join x).join y) pieces.flatten
      else (.error (.failed (.write ((dir.join x).join y) .createFile)),
        (d.create ((dir.join x).join y)).2) := by
  have hthere : d.withParent (dir.join x) = (true, d) := by
    rw [withParent, h.kind?]
    rfl
  rw [outcome_write_eq hx hdir hy hfull, hthere]
  simp

end Disk

end FlatWeights
