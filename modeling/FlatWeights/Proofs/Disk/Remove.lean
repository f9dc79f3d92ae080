import FlatWeights.Proofs.Disk.Requests

/-!
Removing a directory with everything below it. What lies elsewhere stays, and what lies strictly
below goes. The directory itself goes too, unless the path to it has led through what was below it:
such a path leads nowhere any more once the directory is empty, and the empty directory remains.

`without` is what removing leaves where anything may stand at the path, or nothing.
-/

set_option autoImplicit false

namespace FlatWeights

namespace Disk

variable {d e : Disk} {p dir : Path} {s k l : Location}

/-- Everything below a place has gone, and nothing elsewhere. -/
structure Cleared (s : Location) (d e : Disk) : Prop where
  limits : SameLimits d e
  fell : WorkingDir.FellFrom s d.here e.here
  outside : ∀ k, ¬ s <:+ k → e.tree.find? k = d.tree.find? k
  below : ∀ k, s <:+ k → k ≠ s → e.tree.find? k = none

/-- The disk with everything below a place removed. -/
def emptied (d : Disk) (s : Location) : Disk :=
  { d with tree := d.tree.clear s, here := d.here.afterClear s }

/-- To empty a directory clears its place. -/
theorem cleared_emptied (d : Disk) (s : Location) : Cleared s d (d.emptied s) where
  limits := ⟨rfl, rfl⟩
  fell := WorkingDir.fellFrom_afterClear s d.here
  outside k hk := by
    rw [emptied, FileTree.find?_clear, if_neg fun h => hk h.1]
  below k hk hks := by
    rw [emptied, FileTree.find?_clear, if_pos ⟨hk, hks⟩]

/-- To empty a directory leaves the directory. -/
theorem find?_emptied_self (d : Disk) (s : Location) :
    (d.emptied s).tree.find? s = d.tree.find? s := by
  rw [emptied, FileTree.find?_clear, if_neg fun h => h.2 rfl]

/-- The disk that removing a directory leaves, given what the path leads to once it is empty. -/
def erased (d : Disk) (s : Location) : Disk :=
  { d.emptied s with
    tree := (d.emptied s).tree.erase s, here := (d.emptied s).here.afterErase s }

/-- To erase a directory clears its place. -/
theorem cleared_erased (d : Disk) {s : Location} (hs : s ≠ []) : Cleared s d (d.erased s) where
  limits := ⟨rfl, rfl⟩
  fell := (cleared_emptied d s).fell.trans (WorkingDir.fellFrom_afterErase hs _)
  outside k hk := by
    rw [erased, FileTree.find?_erase _ hs, if_neg hk, (cleared_emptied d s).outside k hk]
  below k hk _ := by
    rw [erased, FileTree.find?_erase _ hs, if_pos hk]

/-- A directory that was erased is gone. -/
theorem find?_erased_self (d : Disk) {s : Location} (hs : s ≠ []) :
    (d.erased s).tree.find? s = none := by
  rw [erased, FileTree.find?_erase _ hs, if_pos (List.suffix_refl s)]

/-! ## Paths and what is removed -/

theorem fellFrom_origin (h : WorkingDir.FellFrom s d.here e.here) (p : Path) :
    WorkingDir.FellFrom s (d.origin p) (e.origin p) := by
  rw [origin, origin]
  split
  · exact .refl s _
  · exact h

/-- A path begins where it began if its ground is not among what was removed. -/
theorem origin_of_fell (hfell : WorkingDir.FellFrom s d.here e.here)
    (hground : ¬ s <:+ (d.origin p).ground) : e.origin p = d.origin p := by
  rw [origin, origin]
  split
  · rfl
  · rename_i hrel
    rw [origin, if_neg hrel] at hground
    exact hfell.eq_of_not_suffix hground

/-- Where a path begins after a directory was emptied: where it began, or where that has fallen. -/
theorem origin_emptied (d : Disk) (s : Location) (p : Path) :
    (d.emptied s).origin p = (d.origin p).afterClear s := by
  rw [origin, origin]
  split
  · simp [WorkingDir.afterClear, eq_comm]
  · rfl

theorem origin_erased (hs : s ≠ []) (d : Disk) (p : Path) :
    (d.erased s).origin p = ((d.origin p).afterClear s).afterErase s := by
  rw [origin, origin]
  split
  · simp [WorkingDir.afterClear, WorkingDir.afterErase, hs]
  · rfl

/-- A path to an emptied directory still leads there, unless it has led through what was in it. -/
theorem DirAt.emptied (h : d.DirAt p s) (hvisits : ∀ k ∈ d.visits p, ¬ (s <:+ k ∧ k ≠ s)) :
    (d.emptied s).DirAt p s := by
  have horigin : (d.emptied s).origin p = d.origin p := by
    rw [origin_emptied, WorkingDir.afterClear,
      if_neg (hvisits _ (WorkingDir.ground_mem_visits h.lead?))]
  refine h.mono ⟨rfl, rfl⟩ horigin fun k hk => ?_
  by_cases hks : k = s
  · rw [hks, find?_emptied_self, h.stands]
  · rw [(cleared_emptied d s).outside k fun hsuf => hvisits k hk ⟨hsuf, hks⟩, h.directory hk]

/-- A directory is emptied first, and erased if its path still leads to it. -/
theorem removeDir_eq (h : d.DirAt p s) (hname : p.endsInName = true) :
    d.removeDir p = (true, match (d.emptied s).locate p with
      | .error _ => d.emptied s
      | .ok _ => d.erased s) := by
  have hself : (d.emptied s).locate p = Disk.locate
    { d with tree := d.tree.clear s, here := d.here.afterClear s } p := rfl
  rw [removeDir, h.found]
  simp only [h.stands, if_true, ← hself, hname]
  cases (d.emptied s).locate p <;> rfl

/-- What removing a directory leaves. -/
theorem removeDir_cleared (h : d.DirAt p s) (hname : p.endsInName = true) (hs : s ≠ []) :
    Cleared s d (d.removeDir p).2 ∧
      ((d.removeDir p).2.tree.find? s = none ∨
        (d.removeDir p).2.tree.find? s = some .directory ∧
          ∃ k ∈ d.visits p, s <:+ k ∧ k ≠ s) := by
  rw [removeDir_eq h hname]
  cases hagain : (d.emptied s).locate p with
  | ok l => exact ⟨cleared_erased d hs, .inl (find?_erased_self d hs)⟩
  | error astray =>
    refine ⟨cleared_emptied d s, .inr ⟨by rw [find?_emptied_self, h.stands], ?_⟩⟩
    by_contra hno
    have hdir := h.emptied fun k hk hsuf => hno ⟨k, hk, hsuf⟩
    rw [hdir.found] at hagain
    exact absurd hagain (by simp)

/-- When a place is cleared, a path begins where it began or its beginning falls out. -/
theorem Cleared.origin (h : Cleared s d e) (p : Path) :
    WorkingDir.FellFrom s (d.origin p) (e.origin p) := fellFrom_origin h.fell p

/-- Whether a path to an emptied directory still leads there depends on the path alone, and on where
it begins by then. -/
theorem locate_emptied_congr (h : d.DirAt p s) (h' : e.DirAt p s) (hlim : SameLimits d e)
    (horigin : (d.emptied s).origin p = (e.emptied s).origin p) :
    (d.emptied s).locate p = (e.emptied s).locate p := by
  refine locate_congr ⟨hlim.names, hlim.paths⟩ horigin fun k hk => ?_
  have hmem : k ∈ d.visits p :=
    WorkingDir.visits_of_fell ((cleared_emptied d s).origin p) hk
  have hmem' : k ∈ e.visits p := by
    refine WorkingDir.visits_of_fell ((cleared_emptied e s).origin p) ?_
    rwa [← horigin]
  -- on the way stand directories, and below what was emptied nothing
  by_cases hsuf : s <:+ k
  · by_cases hks : k = s
    · rw [hks, find?_emptied_self, find?_emptied_self, h.stands, h'.stands]
    · rw [(cleared_emptied d s).below k hsuf hks, (cleared_emptied e s).below k hsuf hks]
  · rw [(cleared_emptied d s).outside k hsuf, (cleared_emptied e s).outside k hsuf,
      h.directory hmem, h'.directory hmem']

/-- Of a directory that is removed there remains the same on two disks. -/
theorem removeDir_congr (h : d.DirAt p s) (h' : e.DirAt p s) (hlim : SameLimits d e)
    (horigin : (d.emptied s).origin p = (e.emptied s).origin p) (hname : p.endsInName = true)
    (hs : s ≠ []) :
    (d.removeDir p).2.tree.find? s = (e.removeDir p).2.tree.find? s ∧
      (d.removeDir p).2.origin p = (e.removeDir p).2.origin p := by
  rw [removeDir_eq h hname, removeDir_eq h' hname, locate_emptied_congr h h' hlim horigin]
  cases (e.emptied s).locate p with
  | error astray =>
    exact ⟨by rw [find?_emptied_self, find?_emptied_self, h.stands, h'.stands], horigin⟩
  | ok l =>
    refine ⟨by rw [find?_erased_self _ hs, find?_erased_self _ hs], ?_⟩
    rw [origin_erased hs, origin_erased hs, ← origin_emptied, ← origin_emptied, horigin]

/-! ## What may stand at a path -/

/-- The disk without what stands at a path. -/
def without (d : Disk) (p : Path) : Disk :=
  match d.kind? p with
  | none => d
  | some .file => (d.removeFile p).2
  | some .directory => (d.removeDir p).2

/-- Removing does not change what a disk takes. -/
theorem sameLimits_without (d : Disk) (p : Path) : SameLimits d (d.without p) := by
  rw [without]
  split
  · exact .refl d
  · rw [removeFile]
    split
    · exact .refl d
    · split <;> exact ⟨rfl, rfl⟩
  · rw [removeDir]
    split
    · exact .refl d
    · split
      · simp only
        split
        · exact ⟨rfl, rfl⟩
        · split <;> exact ⟨rfl, rfl⟩
      · exact .refl d

/-- An entry that is there to be removed is one of a directory. -/
theorem without_eq_self_or {x : String} (hdir : dir ≠ "") (hx : Path.IsName x) (d : Disk) :
    d.without (dir.join x) = d ∨ ∃ l, d.DirAt dir l ∧ d.TakesEntry dir x := by
  cases hfound : d.find? (dir.join x) with
  | none =>
    left
    rw [without, kind?, hfound]
    rfl
  | some found =>
    right
    obtain ⟨k, hk, -⟩ := (find?_eq_some_iff_of_join hdir hx).1 hfound
    obtain ⟨hpath, hname, l, hl, hdirectory, -⟩ := (locate_join_eq_ok_iff hdir hx).1 hk
    exact ⟨l, ⟨hl, hdirectory⟩, hpath, hname⟩

section Without

variable {x : String} (h : d.DirAt dir l) (hx : Path.IsName x) (htakes : d.TakesEntry dir x)

include h hx htakes

/-- What is seen at the path to an entry is what stands in the tree. -/
theorem kind?_join : d.kind? (dir.join x) = (d.tree.find? (x :: l)).map fun
    | .file _ => .file
    | .directory => .directory := by
  have hfind : d.find? (dir.join x) = d.tree.find? (x :: l) := by
    rw [find?, (h.locate_join hx).2 ⟨htakes, rfl⟩]
  exact congrArg (Option.map _) hfind

/-- The path to an entry that is a directory leads to it. -/
theorem dirAt_join (hdir : d.tree.find? (x :: l) = some .directory) :
    d.DirAt (dir.join x) (x :: l) :=
  ⟨(h.locate_join hx).2 ⟨htakes, rfl⟩, hdir⟩

/-- To remove a file erases its place. -/
theorem removeFile_eq {content : Bytes} (hfile : d.tree.find? (x :: l) = some (.file content)) :
    d.removeFile (dir.join x) = (true, { d with tree := d.tree.erase (x :: l) }) := by
  rw [removeFile, (h.locate_join hx).2 ⟨htakes, rfl⟩]
  simp only [hfile]

/-- An entry of a directory is removed with everything below it, but the way to the directory may
have led through it. -/
theorem without_cleared : Cleared (x :: l) d (d.without (dir.join x)) ∧
    ((d.without (dir.join x)).tree.find? (x :: l) = none ∨
      (d.without (dir.join x)).tree.find? (x :: l) = some .directory ∧
        ∃ k ∈ d.visits dir, x :: l <:+ k ∧ k ≠ x :: l) := by
  rw [without, kind?_join h hx htakes]
  cases hfound : d.tree.find? (x :: l) with
  | none =>
    refine ⟨⟨.refl d, .refl _ _, fun _ _ => rfl, fun k hk hne => ?_⟩, .inl hfound⟩
    exact FileTree.find?_below_of_ne_directory (by simp [hfound]) hk hne
  | some found =>
    cases found with
    | file content =>
      have hroot : x :: l ≠ [] := List.cons_ne_nil x l
      simp only [Option.map_some, removeFile_eq h hx htakes hfound]
      refine ⟨⟨⟨rfl, rfl⟩, .refl _ _, fun k hk => ?_, fun k hk _ => ?_⟩, .inl ?_⟩
      · rw [FileTree.find?_erase _ hroot, if_neg hk]
      · rw [FileTree.find?_erase _ hroot, if_pos hk]
      · rw [FileTree.find?_erase _ hroot, if_pos (List.suffix_refl _)]
    | directory =>
      simp only [Option.map_some]
      obtain ⟨hcleared, hself⟩ := removeDir_cleared (dirAt_join h hx htakes hfound)
        (Path.endsInName_join h.ne_empty hx) (List.cons_ne_nil x l)
      refine ⟨hcleared, hself.imp_right ?_⟩
      -- what leads through the directory to itself is on the way to the one above
      rintro ⟨hdir, k, hk, hsuf, hne⟩
      refine ⟨hdir, k, ?_, hsuf, hne⟩
      have hlead := (dirAt_join h hx htakes hfound).lead?
      rcases (mem_visits_join h.ne_empty hx).1 hk with hk | hk
      · exact hk
      · exact absurd (Option.some.inj (hk.symm.trans hlead)) hne

/-- An entry which the way to the directory does not pass is removed for good. -/
theorem without_of_apart (hapart : ∀ k ∈ d.visits dir, ¬ x :: l <:+ k) :
    (d.without (dir.join x)).tree.find? (x :: l) = none ∧
      (d.without (dir.join x)).origin dir = d.origin dir ∧
      (d.without (dir.join x)).DirAt dir l := by
  obtain ⟨hcleared, hself⟩ := without_cleared h hx htakes
  have horigin := origin_of_fell hcleared.fell
    (hapart _ (WorkingDir.ground_mem_visits h.lead?))
  refine ⟨?_, horigin, ?_⟩
  · rcases hself with hnone | ⟨-, k, hk, hsuf, -⟩
    · exact hnone
    · exact absurd hsuf (hapart k hk)
  · refine h.mono hcleared.limits horigin fun k hk => ?_
    rw [hcleared.outside k (hapart k hk), h.directory hk]

/-- A path begins where it would if the entry was emptied, or where it would if the entry had gone
as well. -/
theorem origin_without :
    (d.without (dir.join x)).origin dir = (d.emptied (x :: l)).origin dir ∨
      (d.without (dir.join x)).tree.find? (x :: l) = none ∧
        (d.without (dir.join x)).origin dir = (d.erased (x :: l)).origin dir := by
  -- no path begins in what is not a directory
  have hstill : d.tree.find? (x :: l) ≠ some .directory →
      d.origin dir = (d.emptied (x :: l)).origin dir := fun hne =>
    (origin_of_fell (cleared_emptied d (x :: l)).fell fun hsuf =>
      hne (h.directory_of_ground hsuf)).symm
  rw [without, kind?_join h hx htakes]
  cases hfound : d.tree.find? (x :: l) with
  | none => exact .inl (hstill (by simp [hfound]))
  | some found =>
    cases found with
    | file content =>
      simp only [Option.map_some, removeFile_eq h hx htakes hfound]
      exact .inl (hstill (by simp [hfound]))
    | directory =>
      simp only [Option.map_some, removeDir_eq (dirAt_join h hx htakes hfound)
        (Path.endsInName_join h.ne_empty hx)]
      cases (d.emptied (x :: l)).locate (dir.join x) with
      | error astray => exact .inl rfl
      | ok k => exact .inr ⟨find?_erased_self d (List.cons_ne_nil x l), rfl⟩

/-- No way begins strictly below a directory that was removed. -/
theorem ground_without (hsuf : x :: l <:+ ((d.without (dir.join x)).origin dir).ground) :
    ((d.without (dir.join x)).origin dir).ground = x :: l := by
  rcases origin_without h hx htakes with hemptied | ⟨-, herased⟩
  · rw [hemptied, origin_emptied] at hsuf ⊢
    exact WorkingDir.ground_afterClear hsuf
  · rw [herased, origin_erased (List.cons_ne_nil x l)] at hsuf
    exact absurd hsuf (WorkingDir.not_suffix_ground_afterErase (List.cons_ne_nil x l) _)

/-- Of an entry that is removed there remains the same on two disks on which the way to the
directory is open, and begins in the same place once the entry is emptied. -/
theorem without_congr (h' : e.DirAt dir l) (hlim : SameLimits d e)
    (horigin : (d.emptied (x :: l)).origin dir = (e.emptied (x :: l)).origin dir) :
    (d.without (dir.join x)).tree.find? (x :: l) = (e.without (dir.join x)).tree.find? (x :: l) ∧
      (d.without (dir.join x)).origin dir = (e.without (dir.join x)).origin dir := by
  have htakes' := hlim.takesEntry htakes
  have hboth (hd : d.tree.find? (x :: l) = some .directory)
      (he : e.tree.find? (x :: l) = some .directory) :
      (d.without (dir.join x)).tree.find? (x :: l) =
          (e.without (dir.join x)).tree.find? (x :: l) ∧
        (d.without (dir.join x)).origin dir = (e.without (dir.join x)).origin dir := by
    have hplace := dirAt_join h hx htakes hd
    have hplace' := dirAt_join h' hx htakes' he
    rw [← origin_join h.ne_empty hx, ← origin_join h.ne_empty hx] at horigin
    rw [← origin_join h.ne_empty hx, ← origin_join h.ne_empty hx, without, without, hplace.kind?,
      hplace'.kind?]
    exact removeDir_congr hplace hplace' hlim horigin (Path.endsInName_join h.ne_empty hx)
      (List.cons_ne_nil x l)
  -- if the way leads through the entry, it is a directory on both disks; if not, it is removed
  -- apart from the way
  by_cases hbegins : x :: l <:+ (d.origin dir).ground
  · refine hboth (h.directory_of_ground hbegins) (h'.directory_of_ground ?_)
    rw [← WorkingDir.suffix_ground_afterClear, ← origin_emptied, ← horigin, origin_emptied]
    exact WorkingDir.suffix_ground_afterClear.2 hbegins
  have hsame : d.origin dir = e.origin dir := by
    rw [origin_emptied, origin_emptied, WorkingDir.afterClear_of_not_suffix hbegins] at horigin
    rw [horigin, WorkingDir.afterClear_of_not_suffix]
    rwa [← WorkingDir.suffix_ground_afterClear, ← horigin]
  have hvisits : e.visits dir = d.visits dir := by rw [visits, visits, hsame]
  by_cases hpass : ∃ k ∈ d.visits dir, x :: l <:+ k
  · obtain ⟨k, hk, hsuf⟩ := hpass
    exact hboth (FileTree.directory_above (h.directory hk) hsuf)
      (FileTree.directory_above (h'.directory (by rwa [hvisits])) hsuf)
  · have hapart : ∀ k ∈ d.visits dir, ¬ x :: l <:+ k := fun k hk hsuf => hpass ⟨k, hk, hsuf⟩
    obtain ⟨hself, hbegin, -⟩ := without_of_apart h hx htakes hapart
    obtain ⟨hself', hbegin', -⟩ := without_of_apart h' hx htakes' (by rwa [hvisits])
    rw [hself, hself', hbegin, hbegin', hsame]
    exact ⟨rfl, rfl⟩

/-- What the removal of an entry leaves on another disk, whose working directory has fallen no
further than the removal makes that of the first one fall. -/
theorem without_of_fell (h' : e.DirAt dir l) (hlim : SameLimits d e)
    (hfell : WorkingDir.FellFrom (x :: l) (d.origin dir) (e.origin dir))
    (hfell' : WorkingDir.FellFrom (x :: l) (e.origin dir)
      ((d.without (dir.join x)).origin dir)) :
    ((e.without (dir.join x)).tree.find? (x :: l) = (d.without (dir.join x)).tree.find? (x :: l) ∨
        (e.without (dir.join x)).tree.find? (x :: l) = some .directory) ∧
      (e.without (dir.join x)).origin dir = (d.without (dir.join x)).origin dir := by
  have hlike := without_congr h hx htakes h' hlim
  rcases hfell.afterClear with hsame | hfallen
  · exact (hlike (by rw [origin_emptied, origin_emptied, hsame])).imp (.inl ·.symm) Eq.symm
  -- the second disk begins outside of the entry, and so it did on the first one after the removal
  have hout : ¬ x :: l <:+ (e.origin dir).ground := by
    rw [hfallen]
    exact WorkingDir.not_suffix_ground_afterErase (List.cons_ne_nil x l) _
  have hstill := hfell'.eq_of_not_suffix hout
  rcases origin_without h hx htakes with hemptied | ⟨hnone, -⟩
  · refine (hlike ?_).imp (.inl ·.symm) Eq.symm
    rw [← hemptied, hstill, origin_emptied, WorkingDir.afterClear_of_not_suffix hout]
  · obtain ⟨hcleared, hleft⟩ := without_cleared h' hx (hlim.takesEntry htakes)
    refine ⟨?_, ((hcleared.origin dir).eq_of_not_suffix hout).trans hstill.symm⟩
    exact hleft.imp (fun hnone' => hnone'.trans hnone.symm) And.left

end Without

/-- Nothing is to be seen where an entry was removed, whatever remains of it. -/
theorem kind?_without {x : String} (hdir : dir ≠ "") (hx : Path.IsName x) (d : Disk) :
    (d.without (dir.join x)).kind? (dir.join x) = none := by
  rw [kind?, Option.map_eq_none_iff]
  cases hfound : d.find? (dir.join x) with
  | none =>
    have hsame : d.without (dir.join x) = d := by
      rw [without, kind?, hfound]
      rfl
    rw [hsame, hfound]
  | some found =>
    obtain ⟨k, hk, hstands⟩ := (find?_eq_some_iff_of_join hdir hx).1 hfound
    obtain ⟨hpath, hname, l, hl, hdirectory, rfl⟩ := (locate_join_eq_ok_iff hdir hx).1 hk
    have hopen : d.DirAt dir l := ⟨hl, hdirectory⟩
    have htakes : d.TakesEntry dir x := ⟨hpath, hname⟩
    obtain ⟨hcleared, -⟩ := without_cleared hopen hx htakes
    by_contra hsome
    obtain ⟨again, hagain⟩ := Option.ne_none_iff_exists'.1 hsome
    obtain ⟨k, hk, hstill⟩ := (find?_eq_some_iff_of_join hdir hx).1 hagain
    obtain ⟨-, -, l', hl', -, rfl⟩ := (locate_join_eq_ok_iff hdir hx).1 hk
    -- the path can only lead where it led before
    have hlead : d.lead? dir = some l' :=
      WorkingDir.lead_of_fell (hcleared.origin dir) (lead?_of_locate hl')
    obtain rfl : l = l' := Option.some.inj (hopen.lead?.symm.trans hlead)
    have hkind := kind?_join hopen hx htakes
    rw [without, hkind, hstands] at hk hstill
    cases found with
    | file content =>
      simp only [Option.map_some, removeFile_eq hopen hx htakes hstands] at hstill
      rw [FileTree.find?_erase _ (List.cons_ne_nil x l), if_pos (List.suffix_refl _)] at hstill
      exact absurd hstill (by simp)
    | directory =>
      simp only [Option.map_some, removeDir_eq (dirAt_join hopen hx htakes hstands)
        (Path.endsInName_join hdir hx)] at hk hstill
      cases hempty : (d.emptied (x :: l)).locate (dir.join x) with
      | error astray =>
        simp only [hempty] at hk
        exact absurd hk (by simp)
      | ok place =>
        simp only [hempty] at hstill
        rw [find?_erased_self d (List.cons_ne_nil x l)] at hstill
        exact absurd hstill (by simp)

/-- To remove an entry once more changes nothing. -/
theorem without_without {x : String} (hdir : dir ≠ "") (hx : Path.IsName x) (d : Disk) :
    (d.without (dir.join x)).without (dir.join x) = d.without (dir.join x) := by
  rw [without, kind?_without hdir hx]

/-- A way that passes an entry of an entry is cut by its removal, unless it begins in what is
removed. -/
theorem not_dirAt_of_cut {x y : String} {outer : Path} (houter : outer ≠ "")
    (hy : Path.IsName y) (hx : Path.IsName x) (h : d.DirAt (outer.join y) (y :: l))
    (htakes : d.TakesEntry (outer.join y) x) (hmem : x :: y :: l ∈ d.visits outer)
    (hstart : ¬ x :: y :: l <:+ (d.origin outer).ground) (k : Location) :
    ¬ (d.without ((outer.join y).join x)).DirAt outer k := by
  intro hopen
  obtain ⟨s, hs, heq, hentry⟩ := h.of_join houter hy
  obtain rfl : l = s := (List.cons.inj heq).2
  have hplace := dirAt_join h hx htakes (hs.directory hmem)
  have hcleared : Cleared (x :: y :: l) d (d.without ((outer.join y).join x)) :=
    (without_cleared h hx htakes).1
  have horigin := (hcleared.origin outer).eq_of_not_suffix hstart
  -- the way is still open, so what it passes is still there
  have hstill : (d.without ((outer.join y).join x)).tree.find? (x :: y :: l) =
      some .directory := by
    refine hopen.directory ?_
    rwa [visits, horigin]
  have hlead : some k = some l := by
    rw [← hopen.lead?, ← hs.lead?, Disk.lead?, Disk.lead?, horigin]
  obtain rfl : k = l := Option.some.inj hlead
  have hentry' := hcleared.limits.takesEntry hentry
  have hfound : (d.without ((outer.join y).join x)).tree.find? (y :: k) = some .directory := by
    rw [hcleared.outside _ (not_suffix_cons_self _ _), h.stands]
  have hagain : (d.without ((outer.join y).join x)).locate ((outer.join y).join x) =
      .ok (x :: y :: k) :=
    ((dirAt_join hopen hy hentry' hfound).locate_join hx).2
      ⟨hcleared.limits.takesEntry htakes, rfl⟩
  have hwithout : d.without ((outer.join y).join x) =
      match (d.emptied (x :: y :: k)).locate ((outer.join y).join x) with
      | .error _ => d.emptied (x :: y :: k)
      | .ok _ => d.erased (x :: y :: k) := by
    rw [without, hplace.kind?]
    simp only
    rw [removeDir_eq hplace (Path.endsInName_join h.ne_empty hx)]
  cases hempty : (d.emptied (x :: y :: k)).locate ((outer.join y).join x) with
  | error astray =>
    rw [hempty] at hwithout
    rw [hwithout, hempty] at hagain
    exact absurd hagain (by simp)
  | ok place =>
    rw [hempty] at hwithout
    rw [hwithout, find?_erased_self d (List.cons_ne_nil _ _)] at hstill
    exact absurd hstill (by simp)

end Disk

end FlatWeights
