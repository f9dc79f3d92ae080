import FlatWeights.Proofs.Disk.Requests
import FlatWeights.Proofs.Disk.Run

/-!
Making a directory and those that lead to it. Whatever comes of it, a tree only grows, and only by
directories on the way of the path (`Grown`); if it is granted, the path leads to a directory; and
what is granted on one disk is granted on one that has as much of the way, or more
(`makeDirsUpTo_ahead`).
-/

set_option autoImplicit false

namespace FlatWeights

namespace Disk

variable {d e f : Disk} {p q : Path} {k l : Location}

/-- Nothing but directories on the way of a path has come into being. -/
structure Grown (p : Path) (d e : Disk) : Prop where
  limits : SameLimits d e
  here : e.here = d.here
  view : ∀ k, e.tree.find? k = d.tree.find? k ∨
    d.tree.find? k = none ∧ e.tree.find? k = some .directory ∧ k ∈ d.visits p

namespace Grown

theorem refl (p : Path) (d : Disk) : Grown p d d := ⟨.refl d, rfl, fun _ => .inl rfl⟩

/-- Paths begin where they began. -/
theorem origin (h : Grown p d e) (q : Path) : e.origin q = d.origin q := by
  rw [Disk.origin, Disk.origin, h.here]

/-- Paths have the way that they had. -/
theorem visits (h : Grown p d e) (q : Path) : e.visits q = d.visits q := by
  rw [Disk.visits, Disk.visits, h.origin]

/-- Paths lead by their names where they led. -/
theorem lead? (h : Grown p d e) (q : Path) : e.lead? q = d.lead? q := by
  rw [Disk.lead?, Disk.lead?, h.origin]

/-- What was there stays. -/
theorem kept (h : Grown p d e) {found : Entry} (hk : d.tree.find? k = some found) :
    e.tree.find? k = some found := by
  rcases h.view k with hsame | ⟨hnone, -, -⟩
  · rw [hsame, hk]
  · exact absurd (hk.symm.trans hnone) (by simp)

/-- What has grown twice has grown. -/
theorem trans (h : Grown p d e) (h' : Grown p e f) : Grown p d f where
  limits := h.limits.trans h'.limits
  here := h'.here.trans h.here
  view k := by
    rcases h.view k with hsame | ⟨hnone, hdir, hk⟩
    · rw [← hsame, ← h.visits p]
      exact h'.view k
    · exact .inr ⟨hnone, h'.kept hdir, hk⟩

/-- What came into being on the way to a path did so on the way that goes on from there. -/
theorem mono (h : Grown q d e) (hvisits : ∀ k ∈ d.visits q, k ∈ d.visits p) : Grown p d e :=
  ⟨h.limits, h.here, fun k => (h.view k).imp_right fun ⟨hnone, hdir, hk⟩ =>
    ⟨hnone, hdir, hvisits k hk⟩⟩

end Grown

/-! ## One directory -/

/-- Where a way leads to nothing, its last step went down from a directory. -/
theorem tail_of_goto {w : WorkingDir} {steps : List Step} (hsteps : steps ≠ [])
    (h : d.goto w steps = .ok l) (hl : d.tree.find? l = none) :
    d.tree.find? l.tail = some .directory := by
  induction steps generalizing w with
  | nil => exact absurd rfl hsteps
  | cons s rest ih =>
    obtain ⟨hs, next, hnext, hrest⟩ := goto_cons_eq_ok_iff.1 h
    by_cases hlast : rest = []
    · subst hlast
      obtain rfl : next = .standing l := by
        cases next with
        | standing l' => rw [Except.ok.inj hrest]
        | removed depth above => exact absurd hrest (by simp [goto, walkOutside])
      -- where the last step stays or goes up it ends at a directory, which is not nothing
      cases w with
      | removed depth above =>
        cases s with
        | stay | down => exact absurd hnext (by cases depth <;> simp [WorkingDir.step])
        | up =>
          cases depth with
          | succ depth => exact absurd hnext (by simp [WorkingDir.step])
          | zero =>
            obtain rfl : above = l := by simpa [WorkingDir.step] using hnext
            exact absurd (hl.symm.trans ((refusal?_removed_eq_none_iff.1 hs).2 rfl rfl)) (by simp)
      | standing l' =>
        have hdir := (refusal?_standing_eq_none_iff.1 hs).1
        cases s with
        | stay =>
          obtain rfl : l' = l := by simpa [WorkingDir.step] using hnext
          exact absurd (hl.symm.trans hdir) (by simp)
        | up =>
          obtain rfl : l'.tail = l := by simpa [WorkingDir.step] using hnext
          exact absurd (hl.symm.trans (FileTree.directory_tail hdir)) (by simp)
        | down name =>
          obtain rfl : name :: l' = l := by simpa [WorkingDir.step] using hnext
          exact hdir
    · exact ih hlast hrest

/-- The disk with a new directory. -/
def withDir (d : Disk) (l : Location) : Disk := { d with tree := d.tree.insert l .directory }

/-- A new directory changes the view at its place alone. -/
theorem find?_withDir (hnone : d.tree.find? l = none)
    (htail : d.tree.find? l.tail = some .directory) :
    (d.withDir l).tree.find? = Function.update d.tree.find? l (some .directory) := by
  have hl : l ≠ [] := by
    rintro rfl
    rw [FileTree.find?_root] at hnone
    exact absurd hnone (by simp)
  exact FileTree.find?_insert_eq_update hl htail (by simp [hnone]) .directory

/-- A new directory on the way is the least that may come into being. -/
theorem grown_withDir (hnone : d.tree.find? l = none)
    (htail : d.tree.find? l.tail = some .directory) (hl : l ∈ d.visits p) :
    Grown p d (d.withDir l) := by
  refine ⟨⟨rfl, rfl⟩, rfl, fun k => ?_⟩
  rw [find?_withDir hnone htail]
  by_cases hkl : k = l
  · subst hkl
    exact .inr ⟨hnone, Function.update_self .., hl⟩
  · exact .inl (Function.update_of_ne hkl ..)

/-- Either a directory is made in a directory on the way and the path leads to it, or nothing
happens. -/
theorem makeDir_cases (d : Disk) (p : Path) :
    ((d.makeDir p).1 ≠ .made ∧ (d.makeDir p).2 = d) ∨
      ∃ l ∈ d.visits p, d.tree.find? l = none ∧ d.tree.find? l.tail = some .directory ∧
        d.makeDir p = (.made, d.withDir l) ∧ (d.withDir l).DirAt p l := by
  -- `q` is the path as it is followed for making it, without the slashes at its end
  obtain ⟨q, horigin, hvisits, hlocate, hback⟩ := exists_locateDir p
  rw [makeDir]
  cases hplace : d.locateDir p with
  | error astray => cases astray <;> exact .inl ⟨by simp, rfl⟩
  | ok l =>
    simp only
    by_cases hfree : (d.tree.find? l).isSome = true
    · rw [if_pos hfree]
      exact .inl ⟨by simp, rfl⟩
    · rw [if_neg hfree]
      have hnone : d.tree.find? l = none := by simpa using hfree
      rw [hlocate] at hplace
      split at hplace
      case isFalse => exact absurd hplace (by simp)
      case isTrue htakes =>
        have hmem : l ∈ d.visits q := WorkingDir.mem_visits_of_lead (lead?_of_locate hplace)
        have hsteps : q.steps ≠ [] := by simp [Path.steps, Path.pieces_ne_nil]
        have htail := tail_of_goto hsteps (goto_of_locate hplace) hnone
        have hgrown := grown_withDir hnone htail hmem
        have hself : (d.withDir l).tree.find? l = some .directory := by
          rw [find?_withDir hnone htail, Function.update_self]
        have hq : (d.withDir l).locate q = .ok l :=
          locate_mono hgrown.limits rfl hplace fun k _ hk => hgrown.kept hk
        have hp : (d.withDir l).locate p = .ok l := (hback (d.withDir l) l htakes hself).2 hq
        exact .inr ⟨l, hvisits d l hmem, hnone, htail, rfl, hp, hself⟩

/-- Ask for a directory, and be content if there is one. -/
def ensure (d : Disk) (p : Path) : Bool × Disk :=
  match d.makeDir p with
  | (.made, e) => (true, e)
  | (_, e) => (e.kind? p == some .directory, e)

/-- A directory is made, or nothing happens and the answer is whether one stands there. -/
theorem ensure_cases (d : Disk) (p : Path) :
    d.ensure p = (d.kind? p == some .directory, d) ∨
      ∃ l ∈ d.visits p, d.tree.find? l = none ∧ d.tree.find? l.tail = some .directory ∧
        d.ensure p = (true, d.withDir l) ∧ (d.withDir l).DirAt p l ∧ (d.makeDir p).1 = .made := by
  rcases makeDir_cases d p with ⟨hne, hsame⟩ | ⟨l, hl, hnone, htail, hmake, hdir⟩
  · left
    rw [ensure]
    generalize hmake : d.makeDir p = made at hne hsame
    obtain ⟨answer, e⟩ := made
    obtain rfl : e = d := hsame
    cases answer with
    | made => exact absurd rfl hne
    | refused | noParent => rfl
  · right
    exact ⟨l, hl, hnone, htail, by rw [ensure, hmake], hdir, by rw [hmake]⟩

/-- To ask for a directory makes at most that one. -/
theorem ensure_grown (d : Disk) (p : Path) : Grown p d (d.ensure p).2 := by
  rcases ensure_cases d p with h | ⟨l, hl, hnone, htail, h, -⟩
  · rw [h]
    exact .refl p d
  · rw [h]
    exact grown_withDir hnone htail hl

/-- A directory that is to be had is there afterwards. -/
theorem kind?_of_ensure (h : (d.ensure p).1 = true) :
    (d.ensure p).2.kind? p = some .directory := by
  rcases ensure_cases d p with hsame | ⟨l, -, -, -, hmade, hdir, -⟩
  · rw [hsame] at h ⊢
    simpa using h
  · rw [hmade]
    exact hdir.kind?

/-- Where a directory is not to be had, nothing happens. -/
theorem ensure_of_refused (h : (d.ensure p).1 = false) : (d.ensure p).2 = d := by
  rcases ensure_cases d p with hsame | ⟨l, -, -, -, hmade, -⟩
  · rw [hsame]
  · rw [hmade] at h
    exact absurd h (by simp)

/-- A directory that is seen stands in the tree, unless it is the working directory outside of it.
-/
theorem dirAt_of_kind? (h : d.kind? p = some .directory) :
    (∃ l, d.DirAt p l) ∨ d.locate p = .error .outside := by
  rw [kind?, find?] at h
  cases hp : d.locate p with
  | error astray => cases astray <;> simp_all
  | ok l =>
    left
    refine ⟨l, hp, ?_⟩
    rw [hp] at h
    cases hl : d.tree.find? l with
    | none => simp [hl] at h
    | some found => cases found <;> simp_all

/-- A directory that is seen behind a name stands in the tree. -/
theorem dirAt_of_kind?_join {dir : Path} {x : String} (hdir : dir ≠ "") (hx : Path.IsName x)
    (h : d.kind? (dir.join x) = some .directory) : ∃ l, d.DirAt (dir.join x) l := by
  rcases dirAt_of_kind? h with hdirAt | hout
  · exact hdirAt
  · obtain ⟨front, hjoin, -⟩ := Path.exists_steps_join hdir hx
    obtain ⟨-, hgoto⟩ := (locate_eq_outside_iff (Path.join_ne_empty dir hx)).1 hout
    rw [hjoin] at hgoto
    exact absurd hgoto goto_concat_down_ne_outside

/-- Where the path leads to a directory, none is made. -/
theorem makeDir_of_dirAt (h : d.DirAt p l) : d.makeDir p = (.refused, d) := by
  have htakes : d.takesPath p = true := ((locate_eq_ok_iff h.ne_empty).1 h.found).1
  obtain ⟨q, -, -, hlocate, hback⟩ := exists_locateDir p
  rw [makeDir, hlocate, if_pos htakes, (hback d l htakes h.stands).1 h.found]
  simp [h.stands]

/-- A directory that is there is to be had, and nothing happens. -/
theorem ensure_of_dirAt (h : d.DirAt p l) : d.ensure p = (true, d) := by
  rw [ensure, makeDir_of_dirAt h]
  simp [h.kind?]

/-- The removed working directory counts as there when it is to be made. -/
theorem makeDir_of_outside (h : d.locate p = .error .outside) : d.makeDir p = (.refused, d) := by
  rw [makeDir, locateDir_of_outside h]

/-- The removed working directory is to be had, and nothing happens. -/
theorem ensure_of_outside (h : d.locate p = .error .outside) : d.ensure p = (true, d) := by
  rw [ensure, makeDir_of_outside h]
  simp [kind?, find?, h]

/-- A directory misses the one that leads to it if something on the way is missing. -/
theorem makeDir_noParent_iff : (d.makeDir p).1 = .noParent ↔ d.locateDir p = .error .missing := by
  rw [makeDir]
  cases d.locateDir p with
  | error astray => cases astray <;> simp
  | ok l =>
    simp only
    split <;> simp

/-- A directory that was made has a place. -/
theorem exists_locateDir_of_made (h : (d.makeDir p).1 = .made) : ∃ l, d.locateDir p = .ok l := by
  rw [makeDir] at h
  cases hl : d.locateDir p with
  | error astray => rw [hl] at h; cases astray <;> exact absurd h (by simp)
  | ok l => exact ⟨l, rfl⟩

/-- Where nothing but directories stands on the way, and the way could be open, the directory is to
be had unless one that leads to it is missing. -/
theorem ensure_of_way (hlim : SameLimits d e) (horigin : e.origin p = d.origin p)
    (h : d.DirAt p l)
    (hway : ∀ k ∈ d.visits p, e.tree.find? k = none ∨ e.tree.find? k = some .directory) :
    (e.makeDir p).1 = .noParent ∨ (e.ensure p).1 = true ∧ (e.ensure p).2.DirAt p l := by
  have htakes : d.takesPath p = true := ((locate_eq_ok_iff h.ne_empty).1 h.found).1
  obtain ⟨q, hqorigin, hqvisits, hlocate, hback⟩ := exists_locateDir p
  have hq : d.locate q = .ok l := (hback d l htakes h.stands).1 h.found
  have hqne := ne_empty_of_locate hq
  have hqtakes : e.takesPath q = true := by
    rw [← hlim.takesPath_eq]
    exact ((locate_eq_ok_iff hqne).1 hq).1
  have hplace : e.locateDir p = e.goto (d.origin q) q.steps := by
    rw [hlocate, if_pos (by rwa [← hlim.takesPath_eq]), locate_eq e hqne, if_pos hqtakes,
      hqorigin e, horigin, hqorigin d]
  -- the way is open as far as its directories stand, and the first one that does not is missing
  rcases goto_ok_or_missing hlim (goto_of_locate hq) fun k hk => hway k (hqvisits d k hk)
    with hopen | hmissing
  · right
    rw [hopen] at hplace
    rcases makeDir_cases e p with ⟨hne, -⟩ | ⟨l', -, -, -, hmade, hdir⟩
    · -- nothing was made, so the directory was there
      have hl : e.tree.find? l = some .directory := by
        rcases hway l (WorkingDir.mem_visits_of_lead h.lead?) with hnone | hdir
        · rw [makeDir, hplace] at hne
          simp [hnone] at hne
        · exact hdir
      have hdir : e.DirAt p l := by
        refine ⟨(hback e l (by rwa [← hlim.takesPath_eq]) hl).2 ?_, hl⟩
        rw [locate_eq e hqne, if_pos hqtakes, hqorigin e, horigin, ← hqorigin d, hopen]
      rw [ensure_of_dirAt hdir]
      exact ⟨rfl, hdir⟩
    · rw [ensure, hmade]
      have hl' : e.withDir l' = (e.makeDir p).2 := by rw [hmade]
      -- what was made is at the place to which the path leads on the first disk
      have hlead : (e.withDir l').lead? p = some l := by
        rw [Disk.lead?]
        exact (congrArg (fun w => w.lead p.steps) horigin).trans h.lead?
      obtain rfl : l' = l := Option.some.inj (hdir.lead?.symm.trans hlead)
      exact ⟨rfl, hdir⟩
  · left
    rw [makeDir, hplace, hmissing]

/-! ## With those that lead to it -/

/-- A directory is asked for, and if the one that leads to it is missing, it is made first. -/
theorem run_makeDirsUpTo (d : Disk) (n : Nat) (p : Path) :
    d.run (FileSystem.makeDirsUpTo (n + 1) p) =
      match p.parent? with
      | none => (true, d)
      | some parent =>
        if (d.makeDir p).1 = .noParent then
          if (d.run (FileSystem.makeDirsUpTo n parent)).1 then
            (d.run (FileSystem.makeDirsUpTo n parent)).2.ensure p
          else (false, (d.run (FileSystem.makeDirsUpTo n parent)).2)
        else d.ensure p := by
  rw [FileSystem.makeDirsUpTo]
  cases p.parent? with
  | none => rfl
  | some parent =>
    have hcases := makeDir_cases d p
    simp only [run_bind, run_makeDir, ensure]
    generalize hmake : d.makeDir p = made at hcases
    obtain ⟨answer, e⟩ := made
    cases answer with
    | made => rfl
    | refused => rfl
    | noParent =>
      obtain rfl : e = d := by
        rcases hcases with ⟨-, hsame⟩ | ⟨l, -, -, -, heq, -⟩
        · exact hsame
        · exact absurd heq (by simp)
      simp only [run_bind, if_true]
      obtain ⟨granted, e'⟩ := e.run (FileSystem.makeDirsUpTo n parent)
      cases granted with
      | false => rfl
      | true =>
        simp only [if_true, run_bind, run_makeDir]
        obtain ⟨answer, e''⟩ := e'.makeDir p
        cases answer <;> rfl

/-- Whatever comes of it, the tree only grows. -/
theorem makeDirsUpTo_grown (d : Disk) (n : Nat) (p : Path) :
    Grown p d (d.run (FileSystem.makeDirsUpTo n p)).2 := by
  induction n generalizing p with
  | zero => exact .refl p d
  | succ n ih =>
    rw [run_makeDirsUpTo]
    cases hparent : p.parent? with
    | none => exact .refl p d
    | some parent =>
      have hup := (ih parent).mono fun k hk => visits_parent? hparent hk
      simp only
      split
      · split
        · exact hup.trans (ensure_grown _ p)
        · exact hup
      · exact ensure_grown d p

/-- Whatever comes of making directories, the tree only grows. -/
theorem grown_of_makeDirAll {granted : Bool}
    (h : d.run (FileSystem.makeDirAll p) = (granted, e)) : Grown p d e := by
  have hgrown := makeDirsUpTo_grown d (p.pieces.length + 1) p
  rwa [← FileSystem.makeDirAll, h] at hgrown

/-- Where making directories to an entry of a directory was not granted, nothing was made but on the
way to the directory. -/
theorem makeDirsUpTo_grown_of_refused {dir : Path} {x : String} (hdir : dir ≠ "")
    (hx : Path.IsName x) {n : Nat}
    (h : (d.run (FileSystem.makeDirsUpTo n (dir.join x))).1 = false) :
    Grown dir d (d.run (FileSystem.makeDirsUpTo n (dir.join x))).2 := by
  cases n with
  | zero => exact .refl dir d
  | succ n =>
    rw [run_makeDirsUpTo] at h ⊢
    cases hparent : (dir.join x).parent? with
    | none => exact .refl dir d
    | some parent =>
      -- the last step was refused and left nothing, so all that was made was made for the parent
      have hup := (makeDirsUpTo_grown d n parent).mono (p := dir) fun k hk =>
        visits_of_parent?_join hdir hx hparent hk
      rw [hparent] at h
      simp only at h ⊢
      split at h
      · rename_i hmissing
        rw [if_pos hmissing]
        split at h
        · rename_i hgranted
          rw [if_pos hgranted, ensure_of_refused h]
          exact hup
        · rename_i hgranted
          rw [if_neg hgranted]
          exact hup
      · rename_i hmissing
        rw [if_neg hmissing, ensure_of_refused h]
        exact .refl dir d

/-- Where making directories was granted, one is seen, or nothing leads to the path. -/
theorem kind?_of_makeDirs {n : Nat} (h : (d.run (FileSystem.makeDirsUpTo n p)).1 = true) :
    p.parent? = none ∨ (d.run (FileSystem.makeDirsUpTo n p)).2.kind? p = some .directory := by
  cases n with
  | zero => exact absurd h (by simp [FileSystem.makeDirsUpTo])
  | succ n =>
    rw [run_makeDirsUpTo] at h ⊢
    cases hparent : p.parent? with
    | none => exact .inl rfl
    | some parent =>
      right
      rw [hparent] at h
      simp only at h ⊢
      split at h
      · rename_i hmissing
        rw [if_pos hmissing]
        split at h
        · rename_i hgranted
          rw [if_pos hgranted]
          exact kind?_of_ensure h
        · exact absurd h (by simp)
      · rename_i hmissing
        rw [if_neg hmissing]
        exact kind?_of_ensure h

/-- Where making directories was granted, the path leads to one, or else out of the tree. -/
theorem dirAt_of_makeDirs {n : Nat} (h : (d.run (FileSystem.makeDirsUpTo n p)).1 = true)
    (hp : p ≠ "") (htakes : d.takesPath p = true) :
    (∃ l, (d.run (FileSystem.makeDirsUpTo n p)).2.DirAt p l) ∨
      (d.run (FileSystem.makeDirsUpTo n p)).2.locate p = .error .outside := by
  rcases kind?_of_makeDirs h with hparent | hkind
  · obtain ⟨habs, hstays⟩ := Path.steps_of_parent?_eq_none hp hparent
    have hgrown := makeDirsUpTo_grown d n p
    have hroot := FileTree.find?_root (d.run (FileSystem.makeDirsUpTo n p)).2.tree
    refine .inl ⟨[], (locate_eq_ok_iff hp).2 ⟨?_, ?_⟩, hroot⟩
    · rwa [← hgrown.limits.takesPath_eq]
    · rw [origin, if_pos habs]
      exact (goto_append_stays [] hstays hroot).2 rfl
  · exact dirAt_of_kind? hkind

/-- Where making directories to an entry was granted, the path leads to it. -/
theorem dirAt_of_makeDirs_join {dir : Path} {x : String} (hdir : dir ≠ "") (hx : Path.IsName x)
    {n : Nat} (h : (d.run (FileSystem.makeDirsUpTo n (dir.join x))).1 = true) :
    ∃ l, (d.run (FileSystem.makeDirsUpTo n (dir.join x))).2.DirAt (dir.join x) l := by
  rcases kind?_of_makeDirs h with hparent | hkind
  · obtain ⟨front, hjoin, -⟩ := Path.exists_steps_join hdir hx
    obtain ⟨-, hstays⟩ := Path.steps_of_parent?_eq_none (Path.join_ne_empty dir hx) hparent
    exact absurd (hstays (.down x) (by simp [hjoin])) (by simp)
  · exact dirAt_of_kind?_join hdir hx hkind

/-! ## Where the directory is there already -/

/-- Nothing is made where the way is open. -/
theorem makeDirsUpTo_of_dirAt (h : d.DirAt p l) (n : Nat) :
    d.run (FileSystem.makeDirsUpTo (n + 1) p) = (true, d) := by
  rw [run_makeDirsUpTo]
  cases p.parent? with
  | none => rfl
  | some parent =>
    have hthere : (d.makeDir p).1 ≠ .noParent := by rw [makeDir_of_dirAt h]; simp
    simp only [if_neg hthere, ensure_of_dirAt h]

/-! ## A disk on which some of the directories are there already -/

/-- On the way of a path the second disk has what the first one has, or a directory. -/
structure Ahead (p : Path) (d e : Disk) : Prop where
  limits : SameLimits d e
  origin : e.origin p = d.origin p
  view : ∀ k ∈ d.visits p, e.tree.find? k = d.tree.find? k ∨ e.tree.find? k = some .directory

namespace Ahead

/-- Both disks have the same way. -/
theorem visits (h : Ahead p d e) : e.visits p = d.visits p := by
  rw [Disk.visits, Disk.visits, h.origin]

/-- A directory on the way stands on the second disk too. -/
theorem kept (h : Ahead p d e) (hk : k ∈ d.visits p) (hdir : d.tree.find? k = some .directory) :
    e.tree.find? k = some .directory := by
  rcases h.view k hk with hsame | hdir'
  · rw [hsame, hdir]
  · exact hdir'

/-- A directory of the first disk is one of the second. -/
theorem dirAt (h : Ahead p d e) (hdir : d.DirAt p l) : e.DirAt p l :=
  hdir.mono h.limits h.origin fun _ hk => h.kept hk (hdir.directory hk)

/-- A disk is ahead on the way to what leads to a path as well. -/
theorem parent (h : Ahead p d e) (hq : p.parent? = some q) : Ahead q d e := by
  refine ⟨h.limits, ?_, fun k hk => h.view k (visits_parent? hq hk)⟩
  rw [origin_parent? hq, origin_parent? hq, h.origin]

/-- What is ahead stays ahead where both have grown on the way to the directory. -/
theorem grown {d' e' : Disk} (h : Ahead p d e) (hq : p.parent? = some q) (hd : Grown q d d')
    (he : Grown q e e') (hgrown : Ahead q d' e') : Ahead p d' e' := by
  refine ⟨hgrown.limits, by rw [hd.origin, he.origin, h.origin], fun k hk => ?_⟩
  rw [hd.visits] at hk
  by_cases hkq : k ∈ d.visits q
  · exact hgrown.view k (by rwa [hd.visits])
  · have hkq' : k ∉ e.visits q := by rwa [(h.parent hq).visits]
    have hsame : d'.tree.find? k = d.tree.find? k :=
      (hd.view k).resolve_right fun ⟨_, _, hmem⟩ => hkq hmem
    have hsame' : e'.tree.find? k = e.tree.find? k :=
      (he.view k).resolve_right fun ⟨_, _, hmem⟩ => hkq' hmem
    rw [hsame, hsame']
    exact h.view k hk

/-- A directory that would be put in place on the first disk has the same place on the second. -/
theorem locateDir (h : Ahead p d e) (hl : d.locateDir p = .ok l) : e.locateDir p = .ok l := by
  obtain ⟨q, hqorigin, hqvisits, hlocate, -⟩ := exists_locateDir p
  rw [hlocate] at hl ⊢
  rw [← h.limits.takesPath_eq]
  split at hl
  case isFalse => exact absurd hl (by simp)
  case isTrue htakes =>
    rw [if_pos htakes]
    refine locate_mono h.limits ?_ hl fun k hk => h.kept (hqvisits d k hk)
    rw [hqorigin, hqorigin, h.origin]

/-- A disk on which all directories of the way are there is ahead. -/
theorem of_dirAt (hlim : SameLimits d e) (horigin : e.origin p = d.origin p) (h : e.DirAt p l) :
    Ahead p d e := by
  refine ⟨hlim, horigin, fun k hk => .inr (h.directory ?_)⟩
  rwa [Disk.visits, horigin]

end Ahead

/-- What is to be had on one disk does not miss the directory that leads to it on one that is
ahead. -/
theorem makeDir_ahead (h : Ahead p d e) (hd : (d.ensure p).1 = true) :
    (e.makeDir p).1 ≠ .noParent := by
  intro hmissing
  have hplace : e.locateDir p = .error .missing := makeDir_noParent_iff.1 hmissing
  rcases ensure_cases d p with hsame | ⟨-, -, -, -, -, -, hmade⟩
  · rw [hsame] at hd
    rcases dirAt_of_kind? (eq_of_beq hd) with ⟨l, hdir⟩ | hout
    · rw [makeDir_of_dirAt (h.dirAt hdir)] at hmissing
      exact absurd hmissing (by simp)
    · rw [makeDir_of_outside (outside_congr h.limits h.origin hout)] at hmissing
      exact absurd hmissing (by simp)
  · obtain ⟨l, hl⟩ := exists_locateDir_of_made hmade
    exact absurd ((h.locateDir hl).symm.trans hplace) (by simp)

/-- Where a directory is to be had once one disk has grown, it is to be had on one that is ahead,
unless what leads to it is missing there. -/
theorem ensure_ahead {d' : Disk} (h : Ahead p d e) (hgrown : Grown p d d')
    (hd : (d'.ensure p).1 = true) (hthere : (e.makeDir p).1 ≠ .noParent) :
    (e.ensure p).1 = true ∧ Ahead p (d'.ensure p).2 (e.ensure p).2 := by
  have hgrown' := hgrown.trans (ensure_grown d' p)
  have hlim : SameLimits (d'.ensure p).2 (e.ensure p).2 :=
    (hgrown'.limits.symm.trans h.limits).trans (ensure_grown e p).limits
  have horigin : (e.ensure p).2.origin p = (d'.ensure p).2.origin p := by
    rw [(ensure_grown e p).origin, h.origin, hgrown'.origin]
  rcases dirAt_of_kind? (kind?_of_ensure hd) with ⟨l, hdir⟩ | hout
  · -- what stands once the first disk has grown was there or was made; the second has as much
    have hway : ∀ k ∈ (d'.ensure p).2.visits p,
        e.tree.find? k = none ∨ e.tree.find? k = some .directory := by
      intro k hk
      rcases h.view k (by rwa [← hgrown'.visits]) with hsame | hstands
      · rcases hgrown'.view k with hkept | ⟨hnone, -, -⟩
        · exact .inr (by rw [hsame, ← hkept, hdir.directory hk])
        · exact .inl (by rw [hsame, hnone])
      · exact .inr hstands
    obtain ⟨hgranted, hdir'⟩ := (ensure_of_way (hgrown'.limits.symm.trans h.limits)
      (by rw [h.origin, hgrown'.origin]) hdir hway).resolve_left hthere
    exact ⟨hgranted, .of_dirAt hlim horigin hdir'⟩
  · have hout' : e.locate p = .error .outside := by
      refine outside_congr (hgrown'.limits.symm.trans h.limits) ?_ hout
      rw [h.origin, hgrown'.origin]
    refine ⟨by rw [ensure_of_outside hout'], hlim, horigin, fun k hk => ?_⟩
    rw [visits_of_outside hout] at hk
    exact absurd hk (by simp)

/-- Where making directories is granted on one disk, it is granted on one that is ahead. -/
theorem makeDirsUpTo_ahead {n : Nat} (h : Ahead p d e)
    (hd : (d.run (FileSystem.makeDirsUpTo n p)).1 = true) :
    (e.run (FileSystem.makeDirsUpTo n p)).1 = true ∧
      Ahead p (d.run (FileSystem.makeDirsUpTo n p)).2 (e.run (FileSystem.makeDirsUpTo n p)).2 := by
  induction n generalizing p with
  | zero => exact absurd hd (by simp [FileSystem.makeDirsUpTo])
  | succ n ih =>
    rw [run_makeDirsUpTo] at hd
    rw [run_makeDirsUpTo, run_makeDirsUpTo]
    cases hparent : p.parent? with
    | none => exact ⟨rfl, h⟩
    | some parent =>
      rw [hparent] at hd
      simp only at hd ⊢
      split at hd
      case isTrue hmissing =>
        rw [if_pos hmissing]
        split at hd
        case isFalse => exact absurd hd (by simp)
        case isTrue hgranted =>
          rw [if_pos hgranted]
          obtain ⟨hgranted', hup⟩ := ih (h.parent hparent) hgranted
          have hgrown := makeDirsUpTo_grown d n parent
          have hgrown' := makeDirsUpTo_grown e n parent
          by_cases hthere : (e.makeDir p).1 = .noParent
          · rw [if_pos hthere, if_pos hgranted']
            have hahead := h.grown hparent hgrown hgrown' hup
            exact ensure_ahead hahead (.refl p _) hd (makeDir_ahead hahead hd)
          · -- what leads to the directory was missing on the first disk alone
            rw [if_neg hthere]
            exact ensure_ahead h (hgrown.mono fun k hk => visits_parent? hparent hk) hd hthere
      case isFalse hmissing =>
        have hthere := makeDir_ahead h hd
        rw [if_neg hmissing, if_neg hthere]
        exact ensure_ahead h (.refl p d) hd hthere

end Disk

end FlatWeights
