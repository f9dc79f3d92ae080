import FlatWeights.Proofs.Emitter.Emit

/-!
The end of a run. Staged files take their places in the output directory one after the other, in the
order of their names, up to the first whose place belongs to a directory: `publish_of_clear` and
`publish_of_blocked`. Files that have taken their places by then stay there. `Published` is the disk
in between; files of the names in `done` are laid over the output directory, and the rest still over
the staging directory.
-/

set_option autoImplicit false

namespace FlatWeights

open Emitter

/-! ## Files of some names -/

/-- The files of some names. -/
def filesOf (names : List String) (files : String → Option Bytes) (x : String) : Option Bytes :=
  if x ∈ names.map fileName then files x else none

/-- The files of all other names. -/
def filesBut (names : List String) (files : String → Option Bytes) (x : String) : Option Bytes :=
  if x ∈ names.map fileName then none else files x

variable {files : String → Option Bytes} {names done : List String} {name x : String}
  {content : Bytes} {place k : Location} {view : Location → Option Entry}

/-- One more name adds its file to those that are in place. -/
theorem filesOf_concat (h : files (fileName name) = some content) :
    filesOf (done ++ [name]) files =
      Function.update (filesOf done files) (fileName name) (some content) := by
  funext x
  rw [Function.update_apply]
  by_cases hx : x = fileName name
  · simp [filesOf, hx, h]
  · simp [filesOf, hx]

/-- One more name takes its file from those that are left. -/
theorem filesBut_concat : filesBut (done ++ [name]) files =
    Function.update (filesBut done files) (fileName name) none := by
  funext x
  rw [Function.update_apply]
  by_cases hx : x = fileName name
  · simp [filesBut, hx]
  · simp [filesBut, hx]

/-- A place that is not that of one of the files shows what was there. -/
theorem overlay_of_no_file (h : ∀ n ∈ names, k ≠ fileName n :: place) :
    overlay place (filesOf names files) view k = view k := by
  by_cases hk : ∃ x, k = x :: place
  · obtain ⟨x, rfl⟩ := hk
    refine overlay_eq_of_none ?_
    rw [filesOf, if_neg]
    rintro hx
    obtain ⟨n, hn, rfl⟩ := List.mem_map.1 hx
    exact h n hn rfl
  · exact overlay_of_ne fun x hx => hk ⟨x, hx⟩

/-- One file less uncovers what was below it. -/
theorem overlay_update_none (x : String) :
    overlay place (Function.update files x none) view =
      Function.update (overlay place files view) (x :: place) (view (x :: place)) := by
  funext k
  rw [Function.update_apply]
  cases k with
  | nil => rfl
  | cons y above =>
    by_cases hplace : above = place
    · subst hplace
      rw [overlay_entry, overlay_entry, Function.update_apply]
      by_cases hy : y = x
      · simp [hy]
      · simp [hy]
    · simp [overlay, hplace]

/-- Files laid over a place leave what is elsewhere as it is. -/
theorem overlay_update_outside (h : ∀ x, k ≠ x :: place) (found : Option Entry) :
    overlay place files (Function.update view k found) =
      Function.update (overlay place files view) k found := by
  funext k'
  rw [Function.update_apply]
  by_cases hk : k' = k
  · subst hk
    rw [if_pos rfl, overlay_of_ne h, Function.update_self]
  · rw [if_neg hk]
    cases k' with
    | nil => exact Function.update_of_ne hk ..
    | cons y above => rw [overlay, overlay, Function.update_of_ne hk]

/-- A file of the output directory is not in the staging directory. -/
theorem file_not_in_staging (name : String) (l : Location) :
    ¬ ".staging" :: l <:+ fileName name :: l := by
  intro h
  have heq := List.IsSuffix.eq_of_length h rfl
  have hlast := congrArg (fun text : String => text.toList.getLast?) (List.cons.inj heq).1
  rw [toList_fileName] at hlast
  simp at hlast

namespace Disk

variable {d d₁ e : Disk} {base : Path} {buffer : Nat} {output : OutputSettings} {l : Location}
  {outs : List OutputTensor}

/-! ## The disk while files take their places -/

/-- The disk is what it was when the run began, with the files of some names laid over the output
directory, and those of all others over the staging directory. -/
structure Published (base : Path) (output : OutputSettings) (l : Location) (d₁ : Disk)
    (outs : List OutputTensor) (done : List String) (d : Disk) : Prop where
  limits : SameLimits d₁ d
  origin : d.origin (stagingPath base output) = d₁.origin (stagingPath base output)
  view : d.tree.find? = overlay l (filesOf done (lastFile? outs))
    (overlay (".staging" :: l) (filesBut done (lastFile? outs)) d₁.tree.find?)

/-- Before the first move nothing is in place. -/
theorem Staged.published (h : Staged base output l d₁ outs d) :
    Published base output l d₁ outs [] d := by
  refine ⟨h.limits, h.origin, ?_⟩
  have hnone : filesOf [] (lastFile? outs) = fun _ => none := rfl
  have hall : filesBut [] (lastFile? outs) = lastFile? outs := rfl
  rw [hnone, overlay_none, hall]
  exact h.view

/-- A staged file is where it was staged until it takes its place. -/
theorem Published.find?_staged (h : Published base output l d₁ outs done d) (hname : name ∉ done)
    (hfile : lastFile? outs (fileName name) = some content) :
    d.tree.find? (fileName name :: ".staging" :: l) = some (.file content) := by
  have hne : ∀ x, fileName name :: ".staging" :: l ≠ x :: l := fun x hx =>
    List.cons_ne_self ".staging" l (List.cons.inj hx).2
  have hbut : filesBut done (lastFile? outs) (fileName name) = some content := by
    rw [filesBut, if_neg, hfile]
    simpa [fileName_injective.eq_iff] using hname
  rw [h.view, overlay_of_ne hne, overlay_eq_file hbut]

/-- A name that was not yet moved has in the output directory what it had. -/
theorem Published.find?_final (h : Published base output l d₁ outs done d) (hname : name ∉ done) :
    d.tree.find? (fileName name :: l) = d₁.tree.find? (fileName name :: l) := by
  have hof : filesOf done (lastFile? outs) (fileName name) = none := by
    rw [filesOf, if_neg]
    simpa [fileName_injective.eq_iff] using hname
  rw [h.view, overlay_eq_of_none hof, overlay_of_not_suffix (file_not_in_staging name l)]

section Publish

/-- Files that were staged, and the directories of the run as it began. -/
structure Ready (base : Path) (output : OutputSettings) (l : Location) (d₁ : Disk)
    (outs : List OutputTensor) : Prop where
  out : outputPath base output ≠ ""
  staging : d₁.DirAt (stagingPath base output) (".staging" :: l)
  inside : ∀ x content, d₁.tree.find? (x :: ".staging" :: l) ≠ some (.file content)
  names : ∀ t ∈ outs, validOutputName t.name = true
  files : ∀ t ∈ outs, (t.file?).isSome
  places : ∀ t ∈ outs, d₁.HasPlace base output l t.name

variable (hready : Ready base output l d₁ outs)

include hready

/-- Moving files neither makes a directory nor takes one away. -/
theorem Published.directory_iff (h : Published base output l d₁ outs done d)
    (hclear : ∀ n ∈ done, d₁.tree.find? (fileName n :: l) ≠ some .directory) :
    d.tree.find? k = some .directory ↔ d₁.tree.find? k = some .directory := by
  -- neither the files that wait nor those that have taken their places lie over a directory
  have hstaged : ∀ x content, filesBut done (lastFile? outs) x = some content →
      d₁.tree.find? (x :: ".staging" :: l) ≠ some .directory := by
    intro x content hx
    rw [filesBut] at hx
    split at hx
    · exact absurd hx (by simp)
    · obtain ⟨t, ht, rfl, -⟩ := exists_of_lastFile? hx
      exact (hready.places t ht).file.2
  have hfinal : ∀ x content, filesOf done (lastFile? outs) x = some content →
      overlay (".staging" :: l) (filesBut done (lastFile? outs)) d₁.tree.find? (x :: l) ≠
        some .directory := by
    intro x content hx
    rw [filesOf] at hx
    split at hx
    · rename_i hmem
      obtain ⟨n, hn, rfl⟩ := List.mem_map.1 hmem
      rw [ne_eq, overlay_eq_directory_iff hstaged]
      exact hclear n hn
    · exact absurd hx (by simp)
  rw [h.view, overlay_eq_directory_iff hfinal, overlay_eq_directory_iff hstaged]

/-- Both directories are where they were. -/
theorem Published.dirAt (h : Published base output l d₁ outs done d)
    (hclear : ∀ n ∈ done, d₁.tree.find? (fileName n :: l) ≠ some .directory) :
    d.DirAt (stagingPath base output) (".staging" :: l) ∧ d.DirAt (outputPath base output) l := by
  have hdir : d.DirAt (stagingPath base output) (".staging" :: l) :=
    hready.staging.mono h.limits h.origin fun k hk =>
      (h.directory_iff hready hclear).2 (hready.staging.directory hk)
  exact ⟨hdir, (hdir.out hready.out).1⟩

/-- One more file takes its place. -/
theorem Published.concat (h : Published base output l d₁ outs done d)
    (hfile : lastFile? outs (fileName name) = some content)
    (hmoved : Became (stagingPath base output) d e
      (Function.update (Function.update d.tree.find? (fileName name :: ".staging" :: l) none)
        (fileName name :: l) (some (.file content)))) :
    Published base output l d₁ outs (done ++ [name]) e := by
  obtain ⟨t, ht, hx, -⟩ := exists_of_lastFile? hfile
  -- nothing was in the place of the staged file when the run began, so nothing is left there
  have hnone : d₁.tree.find? (fileName name :: ".staging" :: l) = none := by
    cases hfound : d₁.tree.find? (fileName name :: ".staging" :: l) with
    | none => rfl
    | some found =>
      cases found with
      | file content => exact absurd hfound (hready.inside _ _)
      | directory =>
        rw [← hx] at hfound
        exact absurd hfound (hready.places t ht).file.2
  have hne : ∀ x, fileName name :: ".staging" :: l ≠ x :: l := fun x hx =>
    List.cons_ne_self ".staging" l (List.cons.inj hx).2
  refine ⟨h.limits.trans hmoved.limits, hmoved.origin.trans h.origin, ?_⟩
  rw [hmoved.view, h.view, filesOf_concat hfile, filesBut_concat, overlay_update,
    overlay_update_none, hnone, overlay_update_outside hne]

section Rename

variable (h : Published base output l d₁ outs done d)
  (hdone : ∀ n ∈ done, d₁.tree.find? (fileName n :: l) ≠ some .directory) (hname : name ∉ done)
  (hfile : lastFile? outs (fileName name) = some content)

include h hdone hname hfile

/-- A file takes its place if that is not the place of a directory. -/
theorem rename_of_clear (hclear : d₁.tree.find? (fileName name :: l) ≠ some .directory) :
    ∃ e, d.outcome ((Storage.below base buffer).rename (stagedPath output name)
      (finalPath output name)) =
        (.ok (), e) ∧ Published base output l d₁ outs (done ++ [name]) e := by
  obtain ⟨t, ht, hx, -⟩ := exists_of_lastFile? hfile
  obtain rfl := fileName_injective hx
  have hvalid := isName_fileName (hready.names t ht)
  have htakes := h.limits.takesEntry (hready.places t ht).file.1
  -- the path without the staging directory is shorter, so it is taken too
  have htakes' : d.TakesEntry (outputPath base output) (fileName t.name) :=
    ⟨takesPath_join_of_join isName_staging hvalid htakes.path, htakes.name⟩
  obtain ⟨hstaging, hdir⟩ := h.dirAt hready hdone
  have hfree : d.tree.find? (fileName t.name :: l) ≠ some .directory := by
    rw [h.find?_final hname]
    exact hclear
  have hne : fileName t.name :: ".staging" :: l ≠ fileName t.name :: l := fun heq =>
    List.cons_ne_self ".staging" l (List.cons.inj heq).2
  obtain ⟨hgranted, hmoved⟩ := rename_file hstaging hvalid hdir hvalid htakes
    (h.find?_staged hname hfile) htakes' hfree hne
  refine ⟨_, ?_, h.concat hready hfile hmoved⟩
  rw [outcome_rename (join_stagedPath base output (hready.names t ht))
    (join_finalPath base output (hready.names t ht)), if_pos hgranted]

/-- A file does not take the place of a directory. -/
theorem rename_of_blocked (buffer : Nat)
    (hblocked : d₁.tree.find? (fileName name :: l) = some .directory) :
    d.outcome ((Storage.below base buffer).rename (stagedPath output name)
      (finalPath output name)) =
      (.error (.failed (.write (base.join (stagedPath output name))
        (.renameTo (base.join (finalPath output name))))), d) := by
  obtain ⟨t, ht, hx, -⟩ := exists_of_lastFile? hfile
  obtain rfl := fileName_injective hx
  have hvalid := isName_fileName (hready.names t ht)
  have htakes := h.limits.takesEntry (hready.places t ht).file.1
  obtain ⟨hstaging, hdir⟩ := h.dirAt hready hdone
  have hrefused := rename_refused hstaging hvalid hdir hvalid htakes (h.find?_staged hname hfile)
    fun _ => by rw [h.find?_final hname, hblocked]
  have hstaged := join_stagedPath base output (hready.names t ht)
  have hfinal := join_finalPath base output (hready.names t ht)
  rw [outcome_rename rfl rfl, hstaged, hfinal, hrefused]
  rfl

end Rename

/-! ## Publishing -/

omit hready in
/-- Names are moved one after the other. -/
theorem publish_append (storage : Storage (StateM Disk)) (front rest : List String) :
    publish storage output (front ++ rest) =
      (do publish storage output front; publish storage output rest) := by
  induction front with
  | nil => rw [List.nil_append, publish, pure_bind]
  | cons name front ih => rw [List.cons_append, publish, publish, ih, bind_assoc]

/-- Files take their places if none of these is the place of a directory. -/
theorem publish_of_clear (h : Published base output l d₁ outs done d)
    (hdone : ∀ n ∈ done, d₁.tree.find? (fileName n :: l) ≠ some .directory)
    (hnodup : (done ++ names).Nodup)
    (hfiles : ∀ n ∈ names, ∃ content, lastFile? outs (fileName n) = some content)
    (hclear : ∀ n ∈ names, d₁.tree.find? (fileName n :: l) ≠ some .directory) :
    ∃ e, d.outcome (publish (Storage.below base buffer) output names) = (.ok (), e) ∧
      Published base output l d₁ outs (done ++ names) e := by
  -- the files of `done` have taken their places; the induction is on those that wait
  induction names generalizing done d with
  | nil => exact ⟨d, rfl, by rwa [List.append_nil]⟩
  | cons name rest ih =>
    have hname : name ∉ done := fun hmem =>
      (List.nodup_append.1 hnodup).2.2 name hmem name (by simp) rfl
    obtain ⟨content, hfile⟩ := hfiles name (by simp)
    obtain ⟨d', hrename, hnext⟩ :=
      rename_of_clear hready h hdone hname hfile (hclear name (by simp))
    have hsplit : done ++ name :: rest = (done ++ [name]) ++ rest := by simp
    rw [hsplit] at hnodup ⊢
    obtain ⟨e, hpublish, hlast⟩ := ih hnext
      (fun n hn => by
        rcases List.mem_append.1 hn with hn | hn
        · exact hdone n hn
        · exact hclear n (by simp [List.mem_singleton.1 hn]))
      hnodup (fun n hn => hfiles n (by simp [hn])) fun n hn => hclear n (by simp [hn])
    exact ⟨e, by rw [publish, outcome_bind_ok hrename, hpublish], hlast⟩

/-- Up to the first file whose place is that of a directory, files take their places; there
publishing stops. -/
theorem publish_of_blocked {front back : List String} {blocked : String}
    (h : Published base output l d₁ outs done d)
    (hdone : ∀ n ∈ done, d₁.tree.find? (fileName n :: l) ≠ some .directory)
    (hnodup : (done ++ (front ++ blocked :: back)).Nodup)
    (hfiles : ∀ n ∈ front ++ blocked :: back,
      ∃ content, lastFile? outs (fileName n) = some content)
    (hclear : ∀ n ∈ front, d₁.tree.find? (fileName n :: l) ≠ some .directory)
    (hblocked : d₁.tree.find? (fileName blocked :: l) = some .directory) :
    ∃ e, d.outcome (publish (Storage.below base buffer) output (front ++ blocked :: back)) =
        (.error (.failed (.write (base.join (stagedPath output blocked))
          (.renameTo (base.join (finalPath output blocked))))), e) ∧
      Published base output l d₁ outs (done ++ front) e := by
  have hfront : (done ++ front).Nodup := by
    rw [← List.append_assoc] at hnodup
    exact (List.nodup_append.1 hnodup).1
  have hname : blocked ∉ done ++ front := fun hmem => by
    rw [← List.append_assoc] at hnodup
    exact (List.nodup_append.1 hnodup).2.2 blocked hmem blocked (by simp) rfl
  obtain ⟨e, hpublish, hlast⟩ := publish_of_clear hready h hdone hfront
    (fun n hn => hfiles n (by simp [hn])) hclear
  obtain ⟨content, hfile⟩ := hfiles blocked (by simp)
  -- the files in front take their places, and the next one is refused its own
  have hrefused := rename_of_blocked hready hlast
    (fun n hn => by
      rcases List.mem_append.1 hn with hn | hn
      · exact hdone n hn
      · exact hclear n hn)
    hname hfile buffer hblocked
  refine ⟨e, ?_, hlast⟩
  rw [publish_append, outcome_bind_ok hpublish, publish, outcome_bind_error hrefused]

end Publish

/-! ## The staging directory is removed -/

/-- Where files were laid over both directories, nothing but those in the output directory is to be
seen outside of the staging directory. -/
theorem Published.outside {done : List String} (h : Published base output l d₁ outs done d)
    (hk : ¬ ".staging" :: l <:+ k) :
    d.tree.find? k = overlay l (filesOf done (lastFile? outs)) d₁.tree.find? k := by
  rw [h.view]
  exact overlay_congr (overlay_of_not_suffix hk)

/-- On two disks with the way to it open, the same remains of the staging directory. -/
theorem find?_without_staging (hout : outputPath base output ≠ "")
    (h : d.DirAt (stagingPath base output) (".staging" :: l))
    (h' : e.DirAt (stagingPath base output) (".staging" :: l)) (hlim : SameLimits d e)
    (horigin : d.origin (stagingPath base output) = e.origin (stagingPath base output))
    (hk : ".staging" :: l <:+ k) :
    (d.without (stagingPath base output)).tree.find? k =
      (e.without (stagingPath base output)).tree.find? k := by
  obtain ⟨hdir, htakes⟩ := h.out hout
  obtain ⟨hdir', -⟩ := h'.out hout
  rw [origin_staging hout, origin_staging hout] at horigin
  by_cases hself : k = ".staging" :: l
  · rw [hself]
    refine (without_congr hdir isName_staging htakes hdir' hlim ?_).1
    rw [origin_emptied, origin_emptied, horigin]
  · rw [(h.cleared_staging hout).1.below k hk hself, (h'.cleared_staging hout).1.below k hk hself]

/-- On two disks with the way to it open, between which it makes all the difference, the same tree
remains once the staging directory is removed. -/
theorem same_without_staging (hout : outputPath base output ≠ "")
    (h : d.DirAt (stagingPath base output) (".staging" :: l))
    (h' : e.DirAt (stagingPath base output) (".staging" :: l)) (hlim : SameLimits d e)
    (horigin : d.origin (stagingPath base output) = e.origin (stagingPath base output))
    (houtside : ∀ k, ¬ ".staging" :: l <:+ k → e.tree.find? k = d.tree.find? k) :
    FileTree.Same (e.without (stagingPath base output)).tree
      (d.without (stagingPath base output)).tree := by
  intro k
  by_cases hk : ".staging" :: l <:+ k
  · exact (find?_without_staging hout h h' hlim horigin hk).symm
  · rw [(h.cleared_staging hout).1.outside k hk, (h'.cleared_staging hout).1.outside k hk,
      houtside k hk]

/-- What is removed in the end is the staging directory. -/
theorem Published.without {done : List String} (hready : Ready base output l d₁ outs)
    (h : Published base output l d₁ outs done d)
    (hclear : ∀ n ∈ done, d₁.tree.find? (fileName n :: l) ≠ some .directory) :
    Cleared (".staging" :: l) d (d.without (stagingPath base output)) ∧
      ((d.without (stagingPath base output)).tree.find? (".staging" :: l) = none ∨
        (d.without (stagingPath base output)).tree.find? (".staging" :: l) = some .directory ∧
          ∃ k ∈ d.visits (outputPath base output),
            ".staging" :: l <:+ k ∧ k ≠ ".staging" :: l) := by
  exact (h.dirAt hready hclear).1.cleared_staging hready.out

/-- Where the same files have taken their places, the same tree remains. -/
theorem Published.same {done : List String} (hready : Ready base output l d₁ outs)
    (h : Published base output l d₁ outs done d) (h' : Published base output l d₁ outs done e)
    (hclear : ∀ n ∈ done, d₁.tree.find? (fileName n :: l) ≠ some .directory) :
    FileTree.Same (e.without (stagingPath base output)).tree
      (d.without (stagingPath base output)).tree := by
  refine same_without_staging hready.out (h.dirAt hready hclear).1 (h'.dirAt hready hclear).1
    (h.limits.symm.trans h'.limits) (h.origin.trans h'.origin.symm) fun k _ => ?_
  rw [h'.view, h.view]

/-- No place of a file is that of a directory, or there is a first one that is. -/
theorem clear_or_blocked (d₁ : Disk) (l : Location) (names : List String) :
    (∀ n ∈ names, d₁.tree.find? (fileName n :: l) ≠ some .directory) ∨
      ∃ front blocked back, names = front ++ blocked :: back ∧
        (∀ n ∈ front, d₁.tree.find? (fileName n :: l) ≠ some .directory) ∧
        d₁.tree.find? (fileName blocked :: l) = some .directory := by
  cases hfound : names.find? fun n => d₁.tree.find? (fileName n :: l) = some .directory with
  | none =>
    left
    simpa using hfound
  | some blocked =>
    right
    obtain ⟨hblocked, front, back, hsplit, hfront⟩ := List.find?_eq_some_iff_append.1 hfound
    exact ⟨front, blocked, back, hsplit, by simpa using hfront, by simpa using hblocked⟩

/-! ## Commit -/

/-- A run that has staged its outputs is ready to commit. -/
theorem Staged.ready (h : Staged base output l d₁ outs d) (hout : outputPath base output ≠ "")
    (h₁ : d₁.DirAt (stagingPath base output) (".staging" :: l))
    (hinside : ∀ x content, d₁.tree.find? (x :: ".staging" :: l) ≠ some (.file content)) :
    Ready base output l d₁ outs :=
  ⟨hout, h₁, hinside, h.names, h.files, h.places⟩

variable {emitter : Emitter}

/-- To commit moves all files and removes the staging directory. -/
theorem emitted_commit (storage : Storage (StateM Disk)) :
    d.emitted emitter (commit storage) = d.emitted emitter (do
      perform (publish storage emitter.output emitter.written.toList)
      perform (storage.delete (staging emitter.output))
      return emitter.stats) := by
  rw [commit, emitted_bind_ok (emitted_get d emitter)]

/-- A commit that succeeds has moved the files of all names, and has removed the staging
directory. -/
theorem publish_of_commit {storage : Storage (StateM Disk)} {stats : EmitStats} {last : Emitter}
    (h : d.emitted emitter (commit storage) = ((.ok stats, last), e)) :
    ∃ d', d.outcome (publish storage emitter.output emitter.written.toList) = (.ok (), d') ∧
      d'.outcome (storage.delete (staging emitter.output)) = (.ok (), e) := by
  rw [emitted_commit, emitted_bind_eq_ok_iff] at h
  obtain ⟨_, _, d', hpublish, hrest⟩ := h
  obtain ⟨hpublish, rfl⟩ := emitted_perform_eq_ok_iff.1 hpublish
  obtain ⟨_, _, e', hdelete, hreturned⟩ := emitted_bind_eq_ok_iff.1 hrest
  obtain ⟨hdelete, rfl⟩ := emitted_perform_eq_ok_iff.1 hdelete
  obtain ⟨-, rfl⟩ := Prod.mk.inj hreturned
  exact ⟨d', hpublish, hdelete⟩

section Commit

variable (buffer) (hready : Ready base emitter.output l d₁ outs)
  (h : Staged base emitter.output l d₁ outs d)
  (hnames : ∀ n, n ∈ emitter.written.toList ↔ ∃ t ∈ outs, t.name = n)

include hnames

/-- The files that were written are all there are. -/
theorem filesOf_written : filesOf emitter.written.toList (lastFile? outs) = lastFile? outs := by
  funext x
  rw [filesOf]
  split
  · rfl
  · rename_i hx
    rw [eq_comm, ← Option.not_isSome_iff_eq_none, Option.isSome_iff_exists]
    rintro ⟨content, hcontent⟩
    obtain ⟨t, ht, rfl, -⟩ := exists_of_lastFile? hcontent
    exact hx (List.mem_map_of_mem ((hnames t.name).2 ⟨t, ht, rfl⟩))

include hready

/-- Every name that was written has a file. -/
theorem exists_lastFile?_of_written {n : String} (hn : n ∈ emitter.written.toList) :
    ∃ content, lastFile? outs (fileName n) = some content := by
  obtain ⟨t, ht, rfl⟩ := (hnames n).1 hn
  exact exists_lastFile? hready.files ht

include h

/-- If no place of a file is that of a directory, all files take their places, and the staging
directory is removed. -/
theorem commit_of_clear
    (hclear : ∀ t ∈ outs, d₁.tree.find? (fileName t.name :: l) ≠ some .directory) :
    ∃ e, Published base emitter.output l d₁ outs emitter.written.toList e ∧
      d.emitted emitter (commit (Storage.below base buffer)) =
        ((.ok emitter.stats, emitter), e.without (stagingPath base emitter.output)) := by
  -- the names that were written are those of the outputs
  have hclear' : ∀ n ∈ emitter.written.toList,
      d₁.tree.find? (fileName n :: l) ≠ some .directory := by
    intro n hn
    obtain ⟨t, ht, rfl⟩ := (hnames n).1 hn
    exact hclear t ht
  obtain ⟨e, hpublish, hlast⟩ := publish_of_clear hready h.published (by simp)
    (by simpa using emitter.written.nodup_toList)
    (fun n hn => exists_lastFile?_of_written hready hnames hn) hclear'
  rw [List.nil_append] at hlast
  refine ⟨e, hlast, ?_⟩
  have hstaging := (hlast.dirAt hready hclear').1
  obtain ⟨hdir, htakes⟩ := hstaging.out hready.out
  have hdelete : e.outcome ((Storage.below base buffer).delete _) = _ :=
    outcome_delete_entry hdir isName_staging htakes (join_staging base emitter.output)
      (by rw [hstaging.stands]; rfl)
  rw [emitted_commit, emitted_bind_ok (emitted_perform_of_ok hpublish),
    emitted_bind_ok (emitted_perform_of_ok hdelete), emitted_pure]
  rfl

/-- Then, outside of the staging directory, the files are laid over the output directory as it was
when the run began. -/
theorem commit_published
    (hclear : ∀ t ∈ outs, d₁.tree.find? (fileName t.name :: l) ≠ some .directory) :
    ∃ e, d.emitted emitter (commit (Storage.below base buffer)) =
      ((.ok emitter.stats, emitter), e) ∧
      ∀ k, ¬ ".staging" :: l <:+ k →
        e.tree.find? k = overlay l (lastFile? outs) d₁.tree.find? k := by
  obtain ⟨e, hpublished, hcommit⟩ := commit_of_clear buffer hready h hnames hclear
  refine ⟨_, hcommit, fun k hk => ?_⟩
  have hclear' : ∀ n ∈ emitter.written.toList,
      d₁.tree.find? (fileName n :: l) ≠ some .directory := by
    intro n hn
    obtain ⟨t, ht, rfl⟩ := (hnames n).1 hn
    exact hclear t ht
  rw [(hpublished.without hready hclear').1.outside k hk, hpublished.outside hk,
    filesOf_written hnames]

/-- If the place of a file is that of a directory, those whose names come before the first such name
take their places, and nothing else happens. -/
theorem commit_of_blocked {front back : List String} {blocked : String}
    (hsplit : emitter.written.toList = front ++ blocked :: back)
    (hclear : ∀ n ∈ front, d₁.tree.find? (fileName n :: l) ≠ some .directory)
    (hblocked : d₁.tree.find? (fileName blocked :: l) = some .directory) :
    ∃ e, Published base emitter.output l d₁ outs front e ∧
      d.emitted emitter (commit (Storage.below base buffer)) =
        ((.error (.failed (.write (base.join (stagedPath emitter.output blocked))
          (.renameTo (base.join (finalPath emitter.output blocked))))), emitter), e) := by
  have hnodup := emitter.written.nodup_toList
  have hfiles : ∀ n ∈ emitter.written.toList, ∃ content,
      lastFile? outs (fileName n) = some content :=
    fun n hn => exists_lastFile?_of_written hready hnames hn
  rw [hsplit] at hnodup hfiles
  obtain ⟨e, hpublish, hlast⟩ := publish_of_blocked hready h.published (by simp)
    (by simpa using hnodup) hfiles hclear hblocked
  rw [List.nil_append] at hlast
  refine ⟨e, hlast, ?_⟩
  rw [emitted_commit, hsplit, emitted_bind_error (emitted_perform_of_error hpublish)]

end Commit

end Disk

end FlatWeights
