import FlatWeights.Proofs.Disk.Way
import FlatWeights.Proofs.Emitter.Places

/-!
The start of a run. The output directory is made, whatever an earlier run has left in its staging
directory is removed, and the staging directory is made anew. `Begun` is what then holds; it also
covers an output directory that is reached through its own staging directory, so that the way to it
is cut by the removal and made again.
-/

set_option autoImplicit false

namespace FlatWeights

open Emitter

namespace Disk

variable {d e d₁ : Disk} {base : Path} {buffer : Nat} {output : OutputSettings} {l k : Location}

/-- The disk once the output directory is made and nothing of an earlier run is left. -/
def prepared (base : Path) (output : OutputSettings) (d : Disk) : Disk :=
  (d.run (FileSystem.makeDirAll (outputPath base output))).2.without (stagingPath base output)

/-- The start of a run makes the output directory, removes the staging directory and makes it
anew. -/
theorem outcome_start (hout : outputPath base output ≠ "") (d : Disk) :
    d.outcome (start (Storage.below base buffer) output) =
      if (d.run (FileSystem.makeDirAll (outputPath base output))).1 then
        (if ((d.prepared base output).run
            (FileSystem.makeDirAll (stagingPath base output))).1 then .ok { output }
          else .error (.failed (.write (stagingPath base output) .createDirectories)),
          ((d.prepared base output).run (FileSystem.makeDirAll (stagingPath base output))).2)
      else (.error (.failed (.write (outputPath base output) .createDirectories)),
        (d.run (FileSystem.makeDirAll (outputPath base output))).2) := by
  have hstart : start (Storage.below base buffer) output = (do
      (Storage.below base buffer).createDirs output.dir
      (do if ← (Storage.below base buffer).contains (staging output) then
            (Storage.below base buffer).delete (staging output))
      (Storage.below base buffer).createDirs (staging output)
      return { output } : Run (StateM Disk) Emitter) := by
    simp only [start, bind_assoc]
    refine congrArg _ (funext fun _ => congrArg _ (funext fun stands => ?_))
    cases stands with
    | true => rfl
    | false => rw [if_neg (by simp), if_neg (by simp), pure_bind]
  have hfirst : base.join output.dir = outputPath base output := rfl
  rw [hstart, outcome_bind, outcome_createDirs hfirst]
  by_cases hmade : (d.run (FileSystem.makeDirAll (outputPath base output))).1 = true
  · have hclear : (d.run (FileSystem.makeDirAll (outputPath base output))).2.outcome
        (do if ← (Storage.below base buffer).contains (staging output) then
            (Storage.below base buffer).delete (staging output)) =
              (.ok (), d.prepared base output) :=
      outcome_clear hout isName_staging (join_staging base output)
    simp only [hmade, if_true]
    rw [outcome_bind_ok hclear, outcome_bind, outcome_createDirs (join_staging base output)]
    by_cases hstaged :
        ((d.prepared base output).run (FileSystem.makeDirAll (stagingPath base output))).1 = true
    · simp [hstaged]
    · simp [hstaged]
  · simp [hmade]

/-! ## What a run begins with -/

/-- The output directory is at `l`, as its path says, and there is a new staging directory in it.
Nothing is in the staging directory unless the path to the output directory leads through it.
Elsewhere nothing has changed, but that the directories on the way of that path are there. -/
structure Begun (base : Path) (output : OutputSettings) (l : Location) (d d₁ : Disk) : Prop where
  limits : SameLimits d d₁
  fell : WorkingDir.FellFrom (".staging" :: l) (d.origin (outputPath base output))
    (d₁.origin (outputPath base output))
  lead : d.lead? (outputPath base output) = some l
  staging : d₁.DirAt (stagingPath base output) (".staging" :: l)
  outside : ∀ k, ¬ ".staging" :: l <:+ k → d₁.tree.find? k = d.tree.find? k ∨
    d.tree.find? k = none ∧ d₁.tree.find? k = some .directory ∧
      k ∈ d.visits (outputPath base output)
  passed : ∀ k ∈ d.visits (outputPath base output), ¬ ".staging" :: l <:+ k →
    d₁.tree.find? k = some .directory
  inside : ∀ k, ".staging" :: l <:+ k → d₁.tree.find? k =
    if k ∈ d₁.visits (stagingPath base output) then some .directory else none
  -- a path may lead through the staging directory, but no path begins in what was removed from it
  entered : ∀ k ∈ d.visits (outputPath base output), ".staging" :: l <:+ k →
    d.tree.find? (".staging" :: l) = none → ".staging" :: l ∈ d.visits (outputPath base output)
  begins : ".staging" :: l <:+ (d₁.origin (outputPath base output)).ground →
    (d₁.origin (outputPath base output)).ground = ".staging" :: l

/-- The output directory is there, and takes the staging directory as an entry. -/
theorem Begun.out (h : Begun base output l d d₁) (hout : outputPath base output ≠ "") :
    d₁.DirAt (outputPath base output) l ∧ d₁.TakesEntry (outputPath base output) ".staging" :=
  h.staging.out hout

/-- No file is left in the staging directory. -/
theorem Begun.files (h : Begun base output l d d₁) (x : String) (content : Bytes) :
    d₁.tree.find? (x :: ".staging" :: l) ≠ some (.file content) := by
  rw [h.inside _ (List.suffix_cons _ _)]
  split <;> simp

/-- No path begins in anything that is in the staging directory. -/
theorem Begun.not_suffix_ground (h : Begun base output l d d₁) (x : String) :
    ¬ x :: ".staging" :: l <:+ (d₁.origin (outputPath base output)).ground := by
  intro hsuf
  rw [h.begins ((List.suffix_cons _ _).trans hsuf)] at hsuf
  exact not_suffix_cons_self _ _ hsuf

/-- Making the output directory leads to it, if the staging directory in it could be made later. -/
theorem dirAt_of_staged (hout : outputPath base output ≠ "")
    (hmade : (d.run (FileSystem.makeDirAll (outputPath base output))).1 = true)
    (hstaged : ((d.prepared base output).run
      (FileSystem.makeDirAll (stagingPath base output))).1 = true) :
    ∃ l, (d.run (FileSystem.makeDirAll (outputPath base output))).2.DirAt
        (outputPath base output) l ∧
      d.TakesEntry (outputPath base output) ".staging" := by
  obtain ⟨place, hplace⟩ := dirAt_of_makeDirs_join hout isName_staging hstaged
  obtain ⟨l, hl, -, htakes⟩ := hplace.of_join hout isName_staging
  have hgrown := makeDirsUpTo_grown d ((outputPath base output).pieces.length + 1)
    (outputPath base output)
  have hagain := makeDirsUpTo_grown (d.prepared base output)
    ((stagingPath base output).pieces.length + 1) (stagingPath base output)
  have hlimits := (hgrown.limits.trans (sameLimits_without _ (stagingPath base output))).trans
    hagain.limits
  have htakes := hlimits.symm.takesEntry htakes
  have hpath := takesPath_of_join isName_staging htakes.path
  rcases dirAt_of_makeDirs hmade hout hpath with ⟨l, hdir⟩ | houtside
  · exact ⟨l, hdir, htakes⟩
  · -- nothing could then be removed, so the path still leads out of the tree
    have hsame : d.prepared base output =
        (d.run (FileSystem.makeDirAll (outputPath base output))).2 := by
      refine (without_eq_self_or hout isName_staging _).resolve_right ?_
      rintro ⟨l, hdir, -⟩
      exact absurd (hdir.found.symm.trans houtside) (by simp)
    have hlead : (d.prepared base output).lead? (outputPath base output) = some l := by
      rw [← hagain.lead?]
      exact hl.lead?
    rw [hsame] at hlead
    exact absurd (hlead.symm.trans (lead?_of_outside houtside)) (by simp)

/-- What is on the way to the staging directory is on the way to the output directory, or the
staging directory itself. -/
theorem mem_visits_staging (hout : outputPath base output ≠ "")
    (hlead : d.lead? (outputPath base output) = some l) : k ∈ d.visits (stagingPath base output) ↔
      k ∈ d.visits (outputPath base output) ∨ k = ".staging" :: l := by
  rw [stagingPath, mem_visits_join hout isName_staging, lead?_join hout isName_staging, hlead]
  simp [eq_comm]

/-- Where the way to a directory leads to a place or below it, the place was there before, or is one
of those on the way. -/
theorem mem_visits_of_entered {p : Path} {s : Location} (hgrown : Grown p d e) (hdir : e.DirAt p l)
    (hk : k ∈ d.visits p) (hsuf : s <:+ k) (hnone : d.tree.find? s = none) : s ∈ d.visits p := by
  by_cases hks : k = s
  · rwa [← hks]
  have hdirectory : e.tree.find? k = some .directory := hdir.directory (by rwa [hgrown.visits])
  have habove : e.tree.find? s = some .directory :=
    FileTree.directory_of_suffix (by rw [hdirectory]; rfl) hsuf hks
  rcases hgrown.view s with hsame | ⟨-, -, hmem⟩
  · exact absurd (habove.symm.trans (hsame.trans hnone)) (by simp)
  · exact hmem

/-! ### The two directories -/

section Granted

variable {d₀ : Disk} (hdir : d₀.DirAt (outputPath base output) l)
  (htakes : d₀.TakesEntry (outputPath base output) ".staging")

include hdir htakes

/-- Removing the staging directory clears its place. -/
theorem cleared_of_takesEntry :
    Cleared (".staging" :: l) d₀ (d₀.without (stagingPath base output)) :=
  (without_cleared hdir isName_staging htakes).1

variable (hstaged : (d₀.without (stagingPath base output)).run
  (FileSystem.makeDirAll (stagingPath base output)) = (true, d₁))

include hstaged

/-- The path to the output directory begins where it began, or its beginning was removed. -/
theorem fell_of_granted : WorkingDir.FellFrom (".staging" :: l)
    (d₀.origin (outputPath base output)) (d₁.origin (outputPath base output)) := by
  rw [(grown_of_makeDirAll hstaged).origin]
  exact (cleared_of_takesEntry hdir htakes).origin _

/-- The staging directory is made at the place from which it was removed. -/
theorem dirAt_of_granted : d₁.DirAt (stagingPath base output) (".staging" :: l) := by
  have hout := hdir.ne_empty
  obtain ⟨place, hplace⟩ :=
    dirAt_of_makeDirs_join hout isName_staging (congrArg Prod.fst hstaged)
  rw [← stagingPath, ← FileSystem.makeDirAll, hstaged] at hplace
  obtain ⟨l', hl', rfl, -⟩ := hplace.of_join hout isName_staging
  have hlead := WorkingDir.lead_of_fell (fell_of_granted hdir htakes hstaged) hl'.lead?
  obtain rfl : l = l' := Option.some.inj (hdir.lead?.symm.trans hlead)
  exact hplace

/-- What was made for the staging directory is in it, for the rest of the way was there. -/
theorem outside_of_granted (hk : ¬ ".staging" :: l <:+ k) :
    d₁.tree.find? k = d₀.tree.find? k := by
  have hout := hdir.ne_empty
  have hcleared := cleared_of_takesEntry hdir htakes
  have hagain := grown_of_makeDirAll hstaged
  rcases hagain.view k with hsame | ⟨hnone, -, hmem⟩
  · rw [hsame, hcleared.outside k hk]
  · have hlead : (d₀.without (stagingPath base output)).lead? (outputPath base output) =
        some l := by
      rw [← hagain.lead?]
      exact ((dirAt_of_granted hdir htakes hstaged).out hout).1.lead?
    rcases (mem_visits_staging hout hlead).1 hmem with hmem | rfl
    · have hmem₀ := WorkingDir.visits_of_fell (hcleared.origin (outputPath base output)) hmem
      rw [hcleared.outside k hk, hdir.directory hmem₀] at hnone
      exact absurd hnone (by simp)
    · exact absurd (List.suffix_refl _) hk

/-- In the staging directory there is nothing but what its own path leads through. -/
theorem inside_of_granted (hk : ".staging" :: l <:+ k) : d₁.tree.find? k =
    if k ∈ d₁.visits (stagingPath base output) then some .directory else none := by
  have hplace := dirAt_of_granted hdir htakes hstaged
  have hagain := grown_of_makeDirAll hstaged
  split
  case isTrue hmem => exact hplace.directory hmem
  case isFalse hmem =>
  have hne : k ≠ ".staging" :: l := by
    rintro rfl
    exact hmem (WorkingDir.mem_visits_of_lead hplace.lead?)
  rcases hagain.view k with hsame | ⟨-, -, hmade⟩
  · rw [hsame, (cleared_of_takesEntry hdir htakes).below k hk hne]
  · rw [← hagain.visits] at hmade
    exact absurd hmade hmem

end Granted

/-- A run begins once the output directory is there and the staging directory is made anew. -/
theorem begun_of_granted {d₀ : Disk} (hgrown : Grown (outputPath base output) d d₀)
    (hdir : d₀.DirAt (outputPath base output) l)
    (htakes : d₀.TakesEntry (outputPath base output) ".staging")
    (hstaged : (d₀.without (stagingPath base output)).run
      (FileSystem.makeDirAll (stagingPath base output)) = (true, d₁)) :
    Begun base output l d d₁ where
  limits := (hgrown.limits.trans (sameLimits_without d₀ (stagingPath base output))).trans
    (grown_of_makeDirAll hstaged).limits
  fell := by
    rw [← hgrown.origin]
    exact fell_of_granted hdir htakes hstaged
  lead := by
    rw [← hgrown.lead?]
    exact hdir.lead?
  staging := dirAt_of_granted hdir htakes hstaged
  outside k hk := by
    rw [outside_of_granted hdir htakes hstaged hk]
    exact hgrown.view k
  passed k hk hsuf := by
    rw [outside_of_granted hdir htakes hstaged hsuf]
    exact hdir.directory (by rwa [hgrown.visits])
  inside _ hk := inside_of_granted hdir htakes hstaged hk
  entered _ hk hsuf hnone := mem_visits_of_entered hgrown hdir hk hsuf hnone
  begins hsuf := by
    rw [(grown_of_makeDirAll hstaged).origin] at hsuf ⊢
    exact ground_without hdir isName_staging htakes hsuf

/-- A run that has started has made both directories, the way to the first one being open. -/
theorem granted_of_start (hout : outputPath base output ≠ "") {emitter : Emitter}
    (h : d.outcome (start (Storage.below base buffer) output) = (.ok emitter, d₁)) :
    emitter = { output } ∧ ∃ d₀ l,
      d.run (FileSystem.makeDirAll (outputPath base output)) = (true, d₀) ∧
      (d₀.without (stagingPath base output)).run
        (FileSystem.makeDirAll (stagingPath base output)) = (true, d₁) ∧
      d₀.DirAt (outputPath base output) l ∧
      d₀.TakesEntry (outputPath base output) ".staging" := by
  rw [outcome_start hout] at h
  split at h
  case isFalse => exact absurd (Prod.mk.inj h).1 (by simp)
  case isTrue hmade =>
  split at h
  case isFalse => exact absurd (Prod.mk.inj h).1 (by simp)
  case isTrue hstaged =>
  obtain ⟨heq, rfl⟩ := Prod.mk.inj h
  obtain ⟨l, hdir, htakes⟩ := dirAt_of_staged hout hmade hstaged
  have hgrown := makeDirsUpTo_grown d ((outputPath base output).pieces.length + 1)
    (outputPath base output)
  exact ⟨(Except.ok.inj heq).symm, _, l, Prod.ext hmade rfl, Prod.ext hstaged rfl, hdir,
    hgrown.limits.takesEntry htakes⟩

/-- A run starts where both directories can be made. -/
theorem start_of_granted (hout : outputPath base output ≠ "") {d₀ : Disk}
    (hmade : d.run (FileSystem.makeDirAll (outputPath base output)) = (true, d₀))
    (hstaged : (d₀.without (stagingPath base output)).run
      (FileSystem.makeDirAll (stagingPath base output)) = (true, d₁)) :
    d.outcome (start (Storage.below base buffer) output) = (.ok { output }, d₁) := by
  rw [outcome_start hout, prepared, hmade, if_pos rfl, hstaged, if_pos rfl]

/-- A run that has started has begun with its directories in place. -/
theorem begun_of_start (hout : outputPath base output ≠ "") {emitter : Emitter}
    (h : d.outcome (start (Storage.below base buffer) output) = (.ok emitter, d₁)) :
    emitter = { output } ∧ ∃ l, Begun base output l d d₁ := by
  obtain ⟨heq, d₀, l, hmade, hstaged, hdir, htakes⟩ := granted_of_start hout h
  exact ⟨heq, l, begun_of_granted (grown_of_makeDirAll hmade) hdir htakes hstaged⟩

/-- Whether a run starts can be decided for a disk, and then it is known what it starts with. -/
theorem exists_start_eq (hout : outputPath base output ≠ "")
    (h : (d.outcome (start (Storage.below base buffer) output)).1.toOption.isSome = true) :
    ∃ d₁, d.outcome (start (Storage.below base buffer) output) = (.ok { output }, d₁) := by
  cases hstart : d.outcome (start (Storage.below base buffer) output) with
  | mk result d₁ =>
  rw [hstart] at h
  cases result with
  | error stop => exact absurd h (by simp [Except.toOption])
  | ok emitter =>
  obtain ⟨rfl, -⟩ := begun_of_start hout hstart
  exact ⟨d₁, rfl⟩

/-! ## A start that fails -/

/-- A place is the staging directory in the directory to which a path leads, or below it. -/
def InStaging (d : Disk) (p : Path) (k : Location) : Prop :=
  ∃ l, d.lead? p = some l ∧ ".staging" :: l <:+ k

/-- All that was outside of the staging directory is still there, and nothing new but directories on
the way of the path. -/
structure Untouched (p : Path) (d e : Disk) : Prop where
  kept : ∀ k found, ¬ d.InStaging p k → d.tree.find? k = some found →
    e.tree.find? k = some found
  nothingNew : ∀ k, d.tree.find? k = none →
    e.tree.find? k = none ∨ e.tree.find? k = some .directory ∧ k ∈ d.visits p

/-- Where a tree has only grown nothing was touched. -/
theorem Grown.untouched {p : Path} (h : Grown p d e) : Untouched p d e where
  kept _ _ _ hk := h.kept hk
  nothingNew k hk := by
    rcases h.view k with hsame | ⟨-, hdir, hmem⟩
    · exact .inl (hsame.trans hk)
    · exact .inr ⟨hdir, hmem⟩

/-- Where the staging directory was removed, and nothing was made afterwards but directories on the
way to the output directory, the tree is untouched. -/
theorem untouched_of_prepared {d₀ : Disk} (hgrown : Grown (outputPath base output) d d₀)
    (hdir : d₀.DirAt (outputPath base output) l)
    (htakes : d₀.TakesEntry (outputPath base output) ".staging")
    (hagain : Grown (outputPath base output) (d₀.without (stagingPath base output)) e) :
    Untouched (outputPath base output) d e := by
  have hlead : d.lead? (outputPath base output) = some l := by
    rw [← hgrown.lead?]
    exact hdir.lead?
  obtain ⟨hcleared, hself⟩ := without_cleared hdir isName_staging htakes
  rw [← stagingPath] at hcleared hself
  refine ⟨fun k found hk hfound => hagain.kept ?_, fun k hk => ?_⟩
  · rw [hcleared.outside k fun hsuf => hk ⟨l, hlead, hsuf⟩]
    exact hgrown.kept hfound
  · rcases hagain.view k with hsame | ⟨-, hdirectory, hmem⟩
    · rw [hsame]
      by_cases hsuf : ".staging" :: l <:+ k
      · by_cases hne : k = ".staging" :: l
        · -- the directory remains only if the way leads through it, and was made with the way then
          subst hne
          refine hself.imp_right ?_
          rintro ⟨hdirectory, k, hmem, hbelow, -⟩
          rw [hgrown.visits] at hmem
          exact ⟨hdirectory, mem_visits_of_entered hgrown hdir hmem hbelow hk⟩
        · exact .inl (hcleared.below k hsuf hne)
      · rw [hcleared.outside k hsuf]
        exact hgrown.untouched.nothingNew k hk
    · refine .inr ⟨hdirectory, ?_⟩
      rw [← hgrown.visits]
      exact WorkingDir.visits_of_fell (hcleared.origin _) hmem

/-- A start that fails leaves nothing but directories on the way to the output directory. -/
theorem start_failed (hout : outputPath base output ≠ "") {stop : Stop}
    (h : d.outcome (start (Storage.below base buffer) output) = (.error stop, e)) :
    Untouched (outputPath base output) d e ∧
      ∃ p, stop = .failed (.write p .createDirectories) := by
  have hgrown : Grown (outputPath base output) d
      (d.run (FileSystem.makeDirAll (outputPath base output))).2 := makeDirsUpTo_grown ..
  rw [outcome_start hout] at h
  split at h
  case isFalse =>
    obtain ⟨heq, rfl⟩ := Prod.mk.inj h
    exact ⟨hgrown.untouched, _, (Except.error.inj heq).symm⟩
  case isTrue hmade =>
  split at h
  case isTrue => exact absurd (Prod.mk.inj h).1 (by simp)
  case isFalse hstaged =>
  obtain ⟨heq, rfl⟩ := Prod.mk.inj h
  refine ⟨?_, _, (Except.error.inj heq).symm⟩
  rw [prepared] at hstaged ⊢
  generalize (d.run (FileSystem.makeDirAll (outputPath base output))).2 = d₀ at *
  have hagain : Grown (outputPath base output) (d₀.without (stagingPath base output))
      ((d₀.without (stagingPath base output)).run
        (FileSystem.makeDirAll (stagingPath base output))).2 :=
    makeDirsUpTo_grown_of_refused hout isName_staging (Bool.eq_false_iff.2 hstaged)
  -- either the removal changed nothing or the staging directory could be reached
  rcases without_eq_self_or hout isName_staging d₀ with hsame | ⟨l, hdir, htakes⟩
  · rw [← stagingPath] at hsame
    rw [hsame] at hagain ⊢
    exact (hgrown.trans hagain).untouched
  · exact untouched_of_prepared hgrown hdir htakes hagain

/-! ## Starting again -/

/-- Two disks on which the way to the output directory is open look alike on the way to the staging
directory once what was left in it is removed, if the working directory of the second one has fallen
no further than the removal makes that of the first one fall. -/
theorem ahead_without (h : d.DirAt (outputPath base output) l)
    (h' : e.DirAt (outputPath base output) l)
    (htakes : d.TakesEntry (outputPath base output) ".staging") (hlim : SameLimits d e)
    (hfell : WorkingDir.FellFrom (".staging" :: l) (d.origin (outputPath base output))
      (e.origin (outputPath base output)))
    (hfell' : WorkingDir.FellFrom (".staging" :: l) (e.origin (outputPath base output))
      ((d.without (stagingPath base output)).origin (outputPath base output)))
    (hlead : (d.without (stagingPath base output)).lead? (outputPath base output) = some l) :
    Ahead (stagingPath base output) (d.without (stagingPath base output))
      (e.without (stagingPath base output)) := by
  have hout := h.ne_empty
  have hclear := cleared_of_takesEntry h htakes
  have hclear' := cleared_of_takesEntry h' (hlim.takesEntry htakes)
  obtain ⟨hself, hafter⟩ := without_of_fell h isName_staging htakes h' hlim hfell hfell'
  rw [← stagingPath] at hself hafter
  refine ⟨(hclear.limits.symm.trans hlim).trans hclear'.limits, ?_, fun k hk => ?_⟩
  · rw [origin_staging hout, origin_staging hout, hafter]
  · rcases (mem_visits_staging hout hlead).1 hk with hk | rfl
    · -- below the staging directory nothing is left on either, outside of it both have a directory
      by_cases hsuf : ".staging" :: l <:+ k
      · by_cases hne : k = ".staging" :: l
        · rw [hne]
          exact hself
        · exact .inl ((hclear'.below k hsuf hne).trans (hclear.below k hsuf hne).symm)
      · right
        rw [hclear'.outside k hsuf]
        refine h'.directory (WorkingDir.visits_of_fell (hclear'.origin _) ?_)
        rwa [hafter]
    · exact hself

/-- A run starts where the output directory can be made at its place, if the way to the staging
directory is then open as far as it was for a run that has started. -/
theorem start_of_ahead (buffer : Nat) {d₀ e₀ : Disk} (hdir : d₀.DirAt (outputPath base output) l)
    (htakes : d₀.TakesEntry (outputPath base output) ".staging")
    (hstaged : (d₀.without (stagingPath base output)).run
      (FileSystem.makeDirAll (stagingPath base output)) = (true, d₁))
    (hmade : e.run (FileSystem.makeDirAll (outputPath base output)) = (true, e₀))
    (hdir' : e₀.DirAt (outputPath base output) l) (hlim : SameLimits d₀ e₀)
    (hahead : Ahead (stagingPath base output) (d₀.without (stagingPath base output))
      (e₀.without (stagingPath base output))) :
    ∃ e₁, e.outcome (start (Storage.below base buffer) output) = (.ok { output }, e₁) ∧
      Begun base output l e e₁ ∧
      d₁.origin (outputPath base output) = e₁.origin (outputPath base output) := by
  have hout := hdir.ne_empty
  obtain ⟨hgranted, hafter⟩ := makeDirsUpTo_ahead hahead (congrArg Prod.fst hstaged)
  rw [← FileSystem.makeDirAll] at hgranted hafter
  obtain ⟨e₁, hstaged'⟩ := exists_run_eq hgranted
  rw [hstaged, hstaged'] at hafter
  refine ⟨e₁, start_of_granted hout hmade hstaged', begun_of_granted (grown_of_makeDirAll hmade)
    hdir' (hlim.takesEntry htakes) hstaged', ?_⟩
  have hsame := hafter.origin
  rw [origin_staging hout, origin_staging hout] at hsame
  exact hsame.symm

/-- A run that has started on one disk starts on another one, whatever is in the staging directory
there. On the way to the output directory there may be more of it, and what lies in the staging
directory may be gone; the working directory may have fallen out of the tree with it, but no further
than the start of the run makes it fall. -/
theorem start_again (hout : outputPath base output ≠ "") {emitter : Emitter}
    (h : d.outcome (start (Storage.below base buffer) output) = (.ok emitter, d₁))
    (hlead : d.lead? (outputPath base output) = some l) (hlim : SameLimits d e)
    (hfell : WorkingDir.FellFrom (".staging" :: l) (d.origin (outputPath base output))
      (e.origin (outputPath base output)))
    (hfell' : WorkingDir.FellFrom (".staging" :: l) (e.origin (outputPath base output))
      ((d.prepared base output).origin (outputPath base output)))
    (hbegins : e.tree.find? (e.origin (outputPath base output)).ground = some .directory)
    (hway : ∀ k ∈ e.visits (outputPath base output), e.tree.find? k = d.tree.find? k ∨
      e.tree.find? k = some .directory ∨ ".staging" :: l <:+ k ∧ e.tree.find? k = none) :
    ∃ e₁, e.outcome (start (Storage.below base buffer) output) = (.ok emitter, e₁) ∧
      Begun base output l d d₁ ∧ Begun base output l e e₁ ∧
      d₁.origin (outputPath base output) = e₁.origin (outputPath base output) := by
  obtain ⟨rfl, d₀, l', hmade, hstaged, hdir, htakes⟩ := granted_of_start hout h
  have hgrown := grown_of_makeDirAll hmade
  obtain rfl : l = l' :=
    Option.some.inj (hlead.symm.trans ((hgrown.lead? _).symm.trans hdir.lead?))
  have hbegun := begun_of_granted hgrown hdir htakes hstaged
  rw [prepared, hmade] at hfell'
  have hlead₀ : (d₀.without (stagingPath base output)).lead? (outputPath base output) =
      some l := by
    rw [← (grown_of_makeDirAll hstaged).lead?]
    exact (hbegun.out hout).1.lead?
  have hlead' : e.lead? (outputPath base output) = some l := WorkingDir.lead_of_fell hfell' hlead₀
  -- the output directory itself does not lie in its staging directory
  have hlast : e.tree.find? l = d.tree.find? l ∨ e.tree.find? l = some .directory := by
    rcases hway l (WorkingDir.mem_visits_of_lead hlead') with hsame | hdirectory | ⟨hsuf, -⟩
    · exact .inl hsame
    · exact .inr hdirectory
    · exact absurd hsuf (not_suffix_cons_self _ _)
  obtain ⟨e₀, hmade', hdir'⟩ := makeDirAll_again hmade hdir hlim (List.suffix_cons _ _) hfell
    hlead' hbegins
    (fun k hk => (hway k hk).imp_right (Or.imp_right And.right)) hlast
  have hgrown' := grown_of_makeDirAll hmade'
  have hlim' := (hgrown.limits.symm.trans hlim).trans hgrown'.limits
  rw [← hgrown.origin, ← hgrown'.origin] at hfell
  rw [← hgrown'.origin] at hfell'
  obtain ⟨e₁, hstart', hbegun', hsame⟩ := start_of_ahead buffer hdir htakes hstaged hmade' hdir'
    hlim' (ahead_without hdir hdir' htakes hlim' hfell hfell' hlead₀)
  exact ⟨e₁, hstart', hbegun, hbegun', hsame⟩

/-- On the way to the output directory there are directories when the staging directory is removed,
and nothing where the way leads through that. -/
theorem find?_without_of_visited (h : d.DirAt (outputPath base output) l)
    (htakes : d.TakesEntry (outputPath base output) ".staging")
    (hk : k ∈ (d.without (stagingPath base output)).visits (outputPath base output)) :
    (d.without (stagingPath base output)).tree.find? k = some .directory ∨
      ".staging" :: l <:+ k ∧ (d.without (stagingPath base output)).tree.find? k = none := by
  obtain ⟨hcleared, hself⟩ := without_cleared h isName_staging htakes
  rw [← stagingPath] at hcleared hself
  by_cases hsuf : ".staging" :: l <:+ k
  · by_cases hne : k = ".staging" :: l
    · subst hne
      exact hself.symm.imp And.left fun hnone => ⟨hsuf, hnone⟩
    · exact .inr ⟨hsuf, hcleared.below k hsuf hne⟩
  · left
    rw [hcleared.outside k hsuf]
    exact h.directory (WorkingDir.visits_of_fell (hcleared.origin _) hk)

/-- A run that has started starts again once its staging directory is removed, whatever files have
come by then, and begins where it began. -/
theorem start_rerun (hout : outputPath base output ≠ "") {emitter : Emitter}
    (h : d.outcome (start (Storage.below base buffer) output) = (.ok emitter, d₁))
    (hbegun : Begun base output l d d₁)
    (hstaging : e.DirAt (stagingPath base output) (".staging" :: l)) (hlim : SameLimits d₁ e)
    (horigin : e.origin (outputPath base output) = d₁.origin (outputPath base output)) :
    ∃ e₁, (e.without (stagingPath base output)).outcome (start (Storage.below base buffer) output) =
        (.ok emitter, e₁) ∧
      Begun base output l (e.without (stagingPath base output)) e₁ ∧
      d₁.origin (outputPath base output) = e₁.origin (outputPath base output) := by
  obtain ⟨rfl, d₀, l', hmade, hstaged, hdir, htakes⟩ := granted_of_start hout h
  obtain ⟨hopen, htakes'⟩ := hstaging.out hout
  have hgrown := grown_of_makeDirAll hmade
  have hagain := grown_of_makeDirAll hstaged
  obtain rfl : l = l' := by
    exact Option.some.inj (hbegun.lead.symm.trans ((hgrown.lead? _).symm.trans hdir.lead?))
  have hcleared := cleared_of_takesEntry hopen htakes'
  have hlead : (d₀.without (stagingPath base output)).lead? (outputPath base output) =
      some l := by
    rw [← hagain.lead?]
    exact (hbegun.out hout).1.lead?
  have hfell := hbegun.fell
  rw [← horigin] at hfell
  -- the way to the staging directory is open as far as it was after the first removal
  have hahead : Ahead (stagingPath base output) (d₀.without (stagingPath base output))
      (e.without (stagingPath base output)) := by
    refine ahead_without hdir hopen htakes ((hgrown.limits.symm.trans hbegun.limits).trans hlim)
      (by rwa [hgrown.origin]) (.inl ?_) hlead
    rw [horigin, hagain.origin]
  have horigin' := hahead.origin
  rw [origin_staging hout, origin_staging hout] at horigin'
  have hbegins : (e.without (stagingPath base output)).tree.find?
      ((e.without (stagingPath base output)).origin (outputPath base output)).ground =
        some .directory := by
    have hground := ground_of_makeDirAll hstaged hbegun.staging
    rw [origin_staging hout] at hground
    rw [horigin']
    exact hahead.kept ((mem_visits_staging hout hlead).2
      (.inl (WorkingDir.ground_mem_visits hlead))) hground
  obtain ⟨e₁, hstart, -, hbegun', hsame⟩ := start_again hout h hbegun.lead
    ((hbegun.limits.trans hlim).trans hcleared.limits) (hfell.trans (hcleared.origin _))
    (.inl (by rw [prepared, hmade, horigin'])) hbegins fun k hk =>
      .inr (find?_without_of_visited hopen htakes' hk)
  exact ⟨e₁, hstart, hbegun', hsame⟩

end Disk

end FlatWeights
