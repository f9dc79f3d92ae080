import FlatWeights.Proofs.Disk.MakeDirs

/-!
Making the directories of a path again after a part of its way is gone. A path may lead through
places that are not on the way to any of its own directories by their names, as `a/../b` leads
through `a`, and making directories puts these in place as well. So on a disk on which nothing but
directories stands on the way, they are to be had if the path could be open at all
(`makeDirsUpTo_of_passable`); the one thing that cannot be made again is the ground on which the way
begins. The last step is an exception: where a path ends in a piece that stays, as `b/.` does, that
piece is not made, and `makeDirAll_of_passable` asks that the place there is what it was.

With what is removed the working directory may fall out of the tree. A path that leads somewhere
from where it fell to is open from there if it was open before (`DirAt.of_fell`), so that nothing
else changes (`makeDirAll_again`).
-/

set_option autoImplicit false

namespace FlatWeights

namespace Disk

variable {d d₀ e f : Disk} {p q : Path} {k l : Location}

/-- On the second disk nothing but directories stands where a path leads through on the first one,
and the ground on which the way begins is there. -/
structure Passable (p : Path) (d e : Disk) : Prop where
  limits : SameLimits d e
  origin : e.origin p = d.origin p
  begins : e.tree.find? (d.origin p).ground = some .directory
  view : ∀ k ∈ d.visits p, e.tree.find? k = none ∨ e.tree.find? k = some .directory

namespace Passable

theorem visits (h : Passable p d e) : e.visits p = d.visits p := by
  rw [Disk.visits, Disk.visits, h.origin]

/-- What leads to a path is passable if the path is. -/
theorem parent (h : Passable p d e) (hq : p.parent? = some q) : Passable q d e where
  limits := h.limits
  origin := by rw [origin_parent? hq, origin_parent? hq, h.origin]
  begins := by rw [origin_parent? hq, h.begins]
  view k hk := h.view k (visits_parent? hq hk)

/-- New directories are not in the way. -/
theorem grown (h : Passable p d e) (hgrown : Grown q e f) : Passable p d f where
  limits := h.limits.trans hgrown.limits
  origin := by rw [hgrown.origin, h.origin]
  begins := hgrown.kept h.begins
  view k hk := by
    rcases hgrown.view k with hsame | ⟨-, hdir, -⟩
    · rw [hsame]
      exact h.view k hk
    · exact .inr hdir

end Passable

/-! ## A way that begins further up -/

/-- An open way is open from where its working directory has fallen to, if it leads anywhere. -/
theorem goto_of_fell {s : Location} {w v : WorkingDir} {steps : List Step}
    (h : d.goto w steps = .ok l) (hfell : WorkingDir.FellFrom s w v)
    (hlead : v.lead steps = some k) : d.goto v steps = .ok l := by
  induction steps generalizing w v with
  | nil =>
    rcases hfell with rfl | ⟨name, above, -, -, rfl⟩
    · exact h
    · exact absurd hlead (by simp [WorkingDir.lead, WorkingDir.place?])
  | cons s' rest ih =>
    obtain ⟨next, hnext, hrest⟩ := Option.bind_eq_some_iff.1 hlead
    obtain ⟨next', hnext', hfell'⟩ := hfell.step hnext
    have hground := ground_of_goto (by simp) h
    obtain ⟨hs, next'', hnext'', hgoto⟩ := goto_cons_eq_ok_iff.1 h
    obtain rfl : next' = next'' := Option.some.inj (hnext'.symm.trans hnext'')
    refine goto_cons_eq_ok_iff.2 ⟨?_, next, hnext, ih hgoto hfell' hrest⟩
    rcases hfell with rfl | ⟨name, above, -, hsuf, rfl⟩
    · exact hs
    · -- what a directory lay in is a directory
      refine refusal?_removed_eq_none_iff.2 ⟨fun name' hdown => ?_, fun _ _ =>
        FileTree.directory_above hground ((List.suffix_cons _ _).trans hsuf)⟩
      subst hdown
      exact absurd hnext (by simp [WorkingDir.step])

theorem DirAt.of_fell {s : Location} (h : d.DirAt p l) (hlim : SameLimits d e)
    (htree : e.tree = d.tree) (hfell : WorkingDir.FellFrom s (d.origin p) (e.origin p))
    (hlead : e.lead? p = some k) : e.DirAt p l := by
  have hne := h.ne_empty
  obtain ⟨htakes, hgoto⟩ := (locate_eq_ok_iff hne).1 h.found
  refine ⟨(locate_eq_ok_iff hne).2 ⟨by rwa [← hlim.takesPath_eq], ?_⟩, by rw [htree, h.stands]⟩
  rw [← goto_congr hlim fun k _ => by rw [htree]]
  exact goto_of_fell hgoto hfell hlead

/-! ## The directory that leads to a path -/

/-- What leads to a directory is a directory, or not yet in the tree, unless nothing is left of the
way. -/
theorem DirAt.of_parent? (h : d.DirAt p l) (hq : p.parent? = some q) (hcourse : q.course ≠ []) :
    (∃ l', d.DirAt q l') ∨ d.locate q = .error .outside := by
  obtain ⟨htakes, hgoto⟩ := (locate_eq_ok_iff h.ne_empty).1 h.found
  obtain ⟨stays, hsplit, hstays⟩ := Path.exists_trim p.steps
  rw [hsplit] at hgoto
  have hopen : d.goto (d.origin p) p.course = .ok l := goto_of_append_stays hstays hgoto
  have hkept := (Path.course_parent? hq).2
  have hsteps := (Path.course_of_parent? hq).resolve_left hcourse
  cases hlast : p.course using List.reverseRecOn with
  | nil =>
    rw [hlast] at hkept
    exact absurd hkept hcourse
  | append_singleton front s =>
    rw [hlast, List.dropLast_concat] at hkept
    rw [hlast] at hopen
    obtain ⟨back, hfront, hback⟩ := Path.exists_trim front
    have hne : q ≠ "" := by
      rintro rfl
      exact hcourse (by decide)
    rcases goto_of_concat hopen with ⟨l', hl', hdir⟩ | hout
    · refine .inl ⟨l', (locate_eq_ok_iff hne).2 ⟨takesPath_parent? hq htakes, ?_⟩, hdir⟩
      rw [hfront] at hl'
      rw [origin_parent? hq, ← hsteps, hkept]
      exact goto_of_append_stays hback hl'
    · refine .inr ((locate_eq_outside_iff hne).2 ⟨takesPath_parent? hq htakes, ?_⟩)
      rw [goto_eq_outside_iff, hfront] at hout
      rw [goto_eq_outside_iff, origin_parent? hq, ← hsteps, hkept]
      exact hout.of_append

/-- Nothing is made where a path does not come into the tree. -/
theorem makeDirsUpTo_of_outside (h : d.locate p = .error .outside) (n : Nat) :
    d.run (FileSystem.makeDirsUpTo (n + 1) p) = (true, d) := by
  rw [run_makeDirsUpTo]
  cases p.parent? with
  | none => rfl
  | some parent => simp [makeDir_of_outside h, ensure_of_outside h]

/-- A path that has no step that moves asks for nothing that is not there. -/
theorem makeDirsUpTo_of_stays (hp : p.course = []) (htakes : d.takesPath p = true)
    (hground : d.tree.find? (d.origin p).ground = some .directory) (n : Nat) :
    d.run (FileSystem.makeDirsUpTo (n + 1) p) = (true, d) := by
  have hstays : ∀ s ∈ p.steps, s = .stay := by
    obtain ⟨stays, hsplit, hstays⟩ := Path.exists_trim p.steps
    rwa [hsplit, ← Path.course, hp, List.nil_append]
  cases hparent : p.parent? with
  | none => rw [run_makeDirsUpTo, hparent]
  | some parent =>
    have hne : p ≠ "" := by
      rintro rfl
      have hnone : Path.parent? "" = none := by decide
      exact absurd (hnone.symm.trans hparent) (by simp)
    cases horigin : d.origin p with
    | standing here =>
      rw [horigin] at hground
      refine makeDirsUpTo_of_dirAt (l := here) ⟨(locate_eq_ok_iff hne).2 ⟨htakes, ?_⟩, hground⟩ n
      rw [horigin]
      exact (goto_append_stays [] hstays hground).2 rfl
    | removed depth above =>
      refine makeDirsUpTo_of_outside ((locate_eq_outside_iff hne).2 ⟨htakes, ?_⟩) n
      rw [goto_eq_outside_iff, horigin]
      exact WorkingDir.endsOutside_of_stays hstays

/-- Where directories were made, nothing else is on the way. -/
theorem directory_of_makeDirs {n : Nat} (htakes : d.takesPath p = true)
    (hground : d.tree.find? (d.origin p).ground = some .directory)
    (h : (d.run (FileSystem.makeDirsUpTo n p)).1 = true) (hk : k ∈ d.visits p) :
    (d.run (FileSystem.makeDirsUpTo n p)).2.tree.find? k = some .directory := by
  have hgrown := makeDirsUpTo_grown d n p
  by_cases hp : p = ""
  · have hstays : ∀ s ∈ p.steps, s = .stay := by
      rw [hp]
      decide
    have hplace := WorkingDir.visits_of_stays hstays hk
    refine hgrown.kept ?_
    cases horigin : d.origin p with
    | standing here =>
      rw [horigin] at hplace hground
      rwa [← Option.some.inj hplace]
    | removed depth above =>
      rw [horigin] at hplace
      exact absurd hplace (by simp [WorkingDir.place?])
  · rw [← hgrown.visits] at hk
    rcases dirAt_of_makeDirs h hp htakes with ⟨l, hdir⟩ | hout
    · exact hdir.directory hk
    · rw [visits_of_outside hout] at hk
      exact absurd hk (by simp)

/-- Nothing is made on a way whose ground is gone. -/
theorem ensure_of_groundless (h : d.tree.find? (d.origin p).ground ≠ some .directory) :
    (d.ensure p).2 = d := by
  rcases ensure_cases d p with hsame | ⟨-, -, -, -, -, -, hmade⟩
  · rw [hsame]
  · obtain ⟨q, horigin, -, hlocate, -⟩ := exists_locateDir p
    obtain ⟨l, hl⟩ := exists_locateDir_of_made hmade
    rw [hlocate] at hl
    split at hl
    case isFalse => exact absurd hl (by simp)
    case isTrue =>
      have hsteps : q.steps ≠ [] := by simp [Path.steps, Path.pieces_ne_nil]
      have hstands := ground_of_goto hsteps (goto_of_locate hl)
      rw [horigin] at hstands
      exact absurd hstands h

/-- Nothing is made for a path either, when the ground of its way is gone. -/
theorem makeDirsUpTo_of_groundless (h : d.tree.find? (d.origin p).ground ≠ some .directory)
    (n : Nat) : (d.run (FileSystem.makeDirsUpTo n p)).2 = d := by
  induction n generalizing p with
  | zero => rfl
  | succ n ih =>
    rw [run_makeDirsUpTo]
    cases hparent : p.parent? with
    | none => rfl
    | some parent =>
      have hup := ih (p := parent) (by rwa [origin_parent? hparent])
      simp only [hup]
      split
      · split
        · exact ensure_of_groundless h
        · rfl
      · exact ensure_of_groundless h

/-- Where the directories of a path were made, the ground of its way was there before. -/
theorem ground_of_makeDirAll {granted : Bool}
    (h : d.run (FileSystem.makeDirAll p) = (granted, e)) (hdir : e.DirAt p l) :
    d.tree.find? (d.origin p).ground = some .directory := by
  by_contra hnot
  have hsame := makeDirsUpTo_of_groundless hnot (p.pieces.length + 1)
  rw [← FileSystem.makeDirAll, h] at hsame
  obtain rfl : e = d := hsame
  exact hnot hdir.ground

/-! ## Making them again -/

/-- The last directory of a path that ends in a step that moves does not miss the one that leads to
it, once that one is made. -/
theorem makeDir_of_passable (h : Passable p d e) (hdir : d.DirAt p l)
    (hcourse : p.course = p.steps) (hne : p.course ≠ []) (hq : p.parent? = some q)
    (hway : ∀ k ∈ d.visits q, e.tree.find? k = some .directory) :
    (e.makeDir p).1 ≠ .noParent := by
  intro hmissing
  obtain ⟨htakes, hgoto⟩ := (locate_eq_ok_iff hdir.ne_empty).1 hdir.found
  obtain ⟨front, s, hfront⟩ : ∃ front s, p.steps = front ++ [s] := by
    rw [hcourse] at hne
    exact ⟨_, _, (List.dropLast_concat_getLast hne).symm⟩
  have hopen : e.locate p = .ok l := by
    refine (locate_eq_ok_iff hdir.ne_empty).2 ⟨by rwa [← h.limits.takesPath_eq], ?_⟩
    rw [h.origin, hfront]
    rw [hfront] at hgoto
    refine goto_concat_mono h.limits hgoto h.begins fun k hk => hway k ?_
    rw [mem_visits_iff_course, origin_parent? hq, (Path.course_parent? hq).2, hcourse, hfront,
      List.dropLast_concat, WorkingDir.mem_visits_trim]
    exact hk
  rw [makeDir_noParent_iff, locateDir_of_locate hopen] at hmissing
  exact absurd hmissing (by simp)

/-- Once what leads to a directory is made, so is the directory, unless its last step still misses
something. -/
theorem makeDirsUpTo_of_parent {n : Nat} (h : Passable p d e) (hdir : d.DirAt p l)
    (hq : p.parent? = some q) (hup : (e.run (FileSystem.makeDirsUpTo n q)).1 = true)
    (hthere : ((e.run (FileSystem.makeDirsUpTo n q)).2.makeDir p).1 ≠ .noParent) :
    (e.run (FileSystem.makeDirsUpTo (n + 1) p)).1 = true := by
  have hpassable := h.grown (makeDirsUpTo_grown e n q)
  rw [run_makeDirsUpTo, hq]
  simp only [hup, if_true]
  split
  case isTrue =>
    exact ((ensure_of_way hpassable.limits hpassable.origin hdir
      hpassable.view).resolve_left hthere).1
  case isFalse hnow => exact ((ensure_of_way h.limits h.origin hdir h.view).resolve_left hnow).1

/-- Once what leads to a path is made, there are directories on its way. -/
theorem directory_of_parent {n : Nat} (h : Passable p d e) (htakes : d.takesPath p = true)
    (hq : p.parent? = some q) (hup : (e.run (FileSystem.makeDirsUpTo n q)).1 = true)
    (hk : k ∈ d.visits q) :
    (e.run (FileSystem.makeDirsUpTo n q)).2.tree.find? k = some .directory := by
  refine directory_of_makeDirs ?_ ?_ hup (by rwa [(h.parent hq).visits])
  · rw [← h.limits.takesPath_eq]
    exact takesPath_parent? hq htakes
  · rw [origin_parent? hq, h.origin, h.begins]

/-- The directories of a path that ends in a step that moves can be made wherever nothing else
stands on its way. -/
theorem makeDirsUpTo_of_passable {n : Nat} (h : Passable p d e) (htakes : d.takesPath p = true)
    (hdir : p.course ≠ [] →
      p.course = p.steps ∧ ((∃ l, d.DirAt p l) ∨ d.locate p = .error .outside))
    (hn : p.course.length < n) :
    (e.run (FileSystem.makeDirsUpTo n p)).1 = true := by
  -- by induction on the bound, which has room for one step less each time
  induction n generalizing p with
  | zero => exact absurd hn (by simp)
  | succ n ih =>
    by_cases hcourse : p.course = []
    · rw [makeDirsUpTo_of_stays hcourse (by rwa [← h.limits.takesPath_eq])
        (by rw [h.origin, h.begins]) n]
    obtain ⟨hmoves, ⟨l, hdir⟩ | hout⟩ := hdir hcourse
    swap
    · rw [makeDirsUpTo_of_outside (outside_congr h.limits h.origin hout)]
    cases hparent : p.parent? with
    | none => rw [run_makeDirsUpTo, hparent]
    | some parent =>
      have hup : (e.run (FileSystem.makeDirsUpTo n parent)).1 = true := by
        refine ih (h.parent hparent) (takesPath_parent? hparent htakes) (fun hne => ?_) ?_
        · exact ⟨(Path.course_of_parent? hparent).resolve_left hne, hdir.of_parent? hparent hne⟩
        · have hlt := Path.length_course_parent?_lt hparent hcourse
          omega
      refine makeDirsUpTo_of_parent h hdir hparent hup ?_
      exact makeDir_of_passable (h.grown (makeDirsUpTo_grown e n parent)) hdir hmoves hcourse
        hparent fun k => directory_of_parent h htakes hparent hup

/-- Where directories were made, the last one was to be had once those that lead to it were there.
-/
theorem exists_ensure_of_makeDirs {n : Nat} (hq : p.parent? = some q)
    (h : (d.run (FileSystem.makeDirsUpTo (n + 1) p)).1 = true) :
    ∃ d', Grown q d d' ∧ (d'.ensure p).1 = true := by
  rw [run_makeDirsUpTo, hq] at h
  simp only at h
  split at h
  · split at h
    · exact ⟨_, makeDirsUpTo_grown d n q, h⟩
    · exact absurd h (by simp)
  · exact ⟨d, .refl q d, h⟩

/-- The last step to a directory that was made once does not miss anything, when those that lead to
it are made again and its place is what it was. -/
theorem makeDir_again {n : Nat} (hmade : d.run (FileSystem.makeDirAll p) = (true, d₀))
    (hdir : d₀.DirAt p l) (h : Passable p d₀ e)
    (hlast : e.tree.find? l = d.tree.find? l ∨ e.tree.find? l = some .directory)
    (hq : p.parent? = some q) (hup : (e.run (FileSystem.makeDirsUpTo n q)).1 = true) :
    ((e.run (FileSystem.makeDirsUpTo n q)).2.makeDir p).1 ≠ .noParent := by
  have htakes : d₀.takesPath p = true := ((locate_eq_ok_iff hdir.ne_empty).1 hdir.found).1
  have hbefore := grown_of_makeDirAll hmade
  -- the disk on which the last step was taken had no more on the way than there is now
  obtain ⟨d', hgrown, hensured⟩ := exists_ensure_of_makeDirs hq (congrArg Prod.fst hmade)
  have hagain := makeDirsUpTo_grown e n q
  refine makeDir_ahead (d := d') ⟨?_, ?_, fun k hk => ?_⟩ hensured
  · exact (hgrown.limits.symm.trans hbefore.limits).trans (h.limits.trans hagain.limits)
  · rw [hagain.origin, h.origin, hbefore.origin, hgrown.origin]
  · have hpassed : ∀ k ∈ d.visits q,
        (e.run (FileSystem.makeDirsUpTo n q)).2.tree.find? k = some .directory := fun k hk =>
      directory_of_parent h htakes hq hup (by rwa [hbefore.visits])
    rw [hgrown.visits, mem_visits_iff_parent? hq, ← hbefore.lead?, hdir.lead?,
      Option.some.injEq] at hk
    rcases hk with hk | rfl
    · exact .inr (hpassed k hk)
    rcases hagain.view l with hsame | ⟨-, hdirectory, -⟩
    · rw [hsame]
      rcases hlast with hlast | hdirectory
      · rcases hgrown.view l with hsame' | ⟨-, -, hmem⟩
        · exact .inl (hlast.trans hsame'.symm)
        · exact .inr (hsame ▸ hpassed l hmem)
      · exact .inr hdirectory
    · exact .inr hdirectory

/-- **The directories of a path that were made once can be made again** wherever nothing else stands
on its way, if the last one is there as far as it was before. -/
theorem makeDirAll_of_passable (hmade : d.run (FileSystem.makeDirAll p) = (true, d₀))
    (hdir : d₀.DirAt p l) (h : Passable p d₀ e)
    (hlast : e.tree.find? l = d.tree.find? l ∨ e.tree.find? l = some .directory) :
    ∃ e₀, e.run (FileSystem.makeDirAll p) = (true, e₀) ∧ e₀.DirAt p l := by
  have htakes : d₀.takesPath p = true := ((locate_eq_ok_iff hdir.ne_empty).1 hdir.found).1
  have htakes' : e.takesPath p = true := by rwa [← h.limits.takesPath_eq]
  have hgranted : (e.run (FileSystem.makeDirAll p)).1 = true := by
    by_cases hcourse : p.course = []
    · rw [FileSystem.makeDirAll, makeDirsUpTo_of_stays hcourse htakes' (by rw [h.origin, h.begins])]
    cases hparent : p.parent? with
    | none => rw [FileSystem.makeDirAll, run_makeDirsUpTo, hparent]
    | some parent =>
      have hup : (e.run (FileSystem.makeDirsUpTo p.pieces.length parent)).1 = true := by
        refine makeDirsUpTo_of_passable (h.parent hparent) (takesPath_parent? hparent htakes)
          (fun hne => ?_) ?_
        · exact ⟨(Path.course_of_parent? hparent).resolve_left hne, hdir.of_parent? hparent hne⟩
        · have hlt := Path.length_course_parent?_lt hparent hcourse
          have hle := Path.length_course_le p
          omega
      exact makeDirsUpTo_of_parent h hdir hparent hup
        (makeDir_again hmade hdir h hlast hparent hup)
  obtain ⟨e₀, he₀⟩ := exists_run_eq hgranted
  refine ⟨e₀, he₀, ?_⟩
  have hafter := grown_of_makeDirAll he₀
  have hlead : e₀.lead? p = some l := by
    rw [hafter.lead?, Disk.lead?, h.origin]
    exact hdir.lead?
  have hdir' := dirAt_of_makeDirs hgranted hdir.ne_empty htakes'
  rw [← FileSystem.makeDirAll, he₀] at hdir'
  rcases hdir' with ⟨l', hl'⟩ | hout
  · obtain rfl : l' = l := Option.some.inj (hl'.lead?.symm.trans hlead)
    exact hl'
  · exact absurd (hlead.symm.trans (lead?_of_outside hout)) (by simp)

/-- A directory that was made is made again on a disk on which some of its way is there already and
some of it is gone, if the place it leads to is not cut off from where the way begins. -/
theorem makeDirAll_again {place : Location} {d₀ : Disk}
    (hmade : d.run (FileSystem.makeDirAll p) = (true, d₀)) (hdir : d₀.DirAt p l)
    (hlim : SameLimits d e) (hplace : l <:+ place)
    (hfell : WorkingDir.FellFrom place (d.origin p) (e.origin p)) (hlead : e.lead? p = some l)
    (hbegins : e.tree.find? (e.origin p).ground = some .directory)
    (hway : ∀ k ∈ e.visits p, e.tree.find? k = d.tree.find? k ∨
      e.tree.find? k = some .directory ∨ e.tree.find? k = none)
    (hlast : e.tree.find? l = d.tree.find? l ∨ e.tree.find? l = some .directory) :
    ∃ e₀, e.run (FileSystem.makeDirAll p) = (true, e₀) ∧ e₀.DirAt p l := by
  have hgrown := grown_of_makeDirAll hmade
  have hlim₀ : SameLimits d₀ e := hgrown.limits.symm.trans hlim
  rw [← hgrown.origin] at hfell
  -- the second disk has less of the way than the first one has with all directories made
  have hview : ∀ k ∈ e.visits p, e.tree.find? k = none ∨ e.tree.find? k = some .directory := by
    intro k hk
    rcases hway k hk with hsame | hdirectory | hnone
    · rcases hgrown.view k with hkept | ⟨hnone, -, -⟩
      · exact .inr (by rw [hsame, ← hkept, hdir.directory (WorkingDir.visits_of_fell hfell hk)])
      · exact .inl (hsame.trans hnone)
    · exact .inr hdirectory
    · exact .inl hnone
  rcases hfell with hsame | ⟨name, above, hsuf, hground, hremoved⟩
  · exact makeDirAll_of_passable hmade hdir ⟨hlim₀, hsame, by rwa [← hsame], fun k hk =>
      hview k (by rwa [Disk.visits, hsame])⟩ hlast
  · -- from where the working directory has fallen to the way is open on the first disk as well
    let fallen : Disk := { d₀ with here := e.here }
    have hfell : WorkingDir.FellFrom place (d₀.origin p) (e.origin p) :=
      .inr ⟨name, above, hsuf, hground, hremoved⟩
    have hopen : fallen.DirAt p l := hdir.of_fell ⟨rfl, rfl⟩ rfl hfell hlead
    have hthere : e.tree.find? l = some .directory := by
      refine hlast.elim (fun heq => ?_) id
      rw [hgrown.origin] at hground
      rw [heq]
      exact FileTree.directory_above (ground_of_makeDirAll hmade hdir)
        ((hplace.trans hsuf).trans hground)
    exact makeDirAll_of_passable (makeDirsUpTo_of_dirAt hopen _) hopen
      ⟨⟨hlim₀.names, hlim₀.paths⟩, rfl, hbegins, hview⟩ (.inr hthere)

end Disk

end FlatWeights
