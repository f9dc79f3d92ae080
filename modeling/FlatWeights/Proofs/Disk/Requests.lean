import FlatWeights.Proofs.Disk.Walk
import Mathlib.Logic.Function.Basic

/-!
What requests do to the view of a tree. A file lies below nothing and has nothing below it, so to
put one in place, to remove it or to move it changes the view at its own location and nowhere else;
these are stated with `Function.update`. Directories are made where nothing is, which is again a
change at one location, and removed with everything below them.

Each statement also says that the limits of the disk stay, and what becomes of the place where the
steps of a path are taken from.
-/

set_option autoImplicit false

namespace FlatWeights

/-- No place lies in its own entry. -/
theorem not_suffix_cons_self (x : String) (k : Location) : ¬ x :: k <:+ k := by
  intro h
  have hlen := h.length_le
  rw [List.length_cons] at hlen
  omega

namespace FileTree

variable {t : FileTree} {l : Location}

/-- Below what is no directory there is nothing. -/
theorem find?_below_of_ne_directory (hl : t.find? l ≠ some .directory) {k : Location}
    (hk : l <:+ k) (hkl : k ≠ l) : t.find? k = none := by
  obtain ⟨front, rfl⟩ := hk
  have hfront : front ≠ [] := by
    rintro rfl
    exact hkl rfl
  rw [← Option.not_isSome_iff_eq_none]
  exact fun h => hl (find?_of_append hfront h)

/-- Whatever something lies in is a directory. -/
theorem directory_of_suffix {k : Location} (h : (t.find? k).isSome) (hl : l <:+ k) (hkl : k ≠ l) :
    t.find? l = some .directory := by
  by_contra hne
  rw [find?_below_of_ne_directory hne hl hkl] at h
  exact absurd h (by simp)

/-- What a directory lies in, and it itself, is a directory. -/
theorem directory_above {k : Location} (h : t.find? k = some .directory) (hl : l <:+ k) :
    t.find? l = some .directory := by
  by_cases hkl : k = l
  · rw [← hkl, h]
  · exact directory_of_suffix (by rw [h]; rfl) hl hkl

/-- A directory lies in a directory, the root in itself. -/
theorem directory_tail (h : t.find? l = some .directory) : t.find? l.tail = some .directory := by
  cases l with
  | nil => exact find?_root t
  | cons name above =>
    have hsome : (t.find? (name :: above)).isSome := by rw [h]; rfl
    exact find?_tail hsome

/-- An entry that takes the place of no directory changes the view there alone. -/
theorem find?_insert_eq_update (hl : l ≠ []) (htail : t.find? l.tail = some .directory)
    (hfree : t.find? l ≠ some .directory) (e : Entry) :
    (t.insert l e).find? = Function.update t.find? l (some e) := by
  funext k
  rw [find?_insert t hl htail, Function.update_apply]
  by_cases hkl : k = l
  · rw [if_pos hkl, if_pos hkl]
  · rw [if_neg hkl, if_neg hkl]
    split
    · rename_i hk
      rw [find?_below_of_ne_directory hfree hk hkl]
    · rfl

/-- A file is at its new location after a move, and nothing is at the old one. -/
theorem find?_move_eq_update {source target : Location} {content : Bytes}
    (hsource : t.find? source = some (.file content)) (htarget : target ≠ [])
    (htail : t.find? target.tail = some .directory) (hfree : t.find? target ≠ some .directory)
    (hne : source ≠ target) : (t.move source target).find? =
      Function.update (Function.update t.find? source none) target (some (.file content)) := by
  have hroot : source ≠ [] := by
    rintro rfl
    rw [find?_root] at hsource
    exact absurd hsource (by simp)
  have hfile : t.find? source ≠ some .directory := by simp [hsource]
  -- a file is not above the place to which it goes, for there is a directory right above that
  have hst : ¬ source <:+ target := by
    intro h
    rcases eq_or_ne target.tail source with heq | htailne
    · exact hfile (heq ▸ htail)
    · have hsuf : source <:+ target.tail := by
        cases target with
        | nil => exact absurd rfl htarget
        | cons name above => exact (List.suffix_cons_iff.1 h).resolve_left hne
      exact hfile (directory_of_suffix (by rw [htail]; rfl) hsuf htailne)
  funext k
  rw [find?_move t hroot htarget htail hst, Function.update_apply, Function.update_apply]
  -- the two places change, and below them there is nothing before and after
  by_cases hk : k = target
  · subst hk
    have hrel := relocate_append k source []
    rw [List.nil_append, List.nil_append] at hrel
    rw [if_pos (List.suffix_refl _), if_pos rfl, hrel, hsource]
  · rw [if_neg hk]
    by_cases hsuf : target <:+ k
    · obtain ⟨front, rfl⟩ := hsuf
      have hfront : front ≠ [] := by
        rintro rfl
        exact hk rfl
      have hnew : t.find? (front ++ source) = none :=
        find?_below_of_ne_directory hfile (List.suffix_append _ _) (by simpa using hfront)
      have hold : t.find? (front ++ target) = none :=
        find?_below_of_ne_directory hfree (List.suffix_append _ _) hk
      rw [if_pos (List.suffix_append _ _), relocate_append, hnew, hold]
      split <;> rfl
    · rw [if_neg hsuf]
      by_cases hks : k = source
      · rw [if_pos hks, if_pos (hks ▸ List.suffix_refl _)]
      · rw [if_neg hks]
        split
        · rename_i h
          rw [find?_below_of_ne_directory hfile h hks]
        · rfl

end FileTree

namespace Disk

variable {d e : Disk} {p dir : Path} {l k s : Location} {x : String}

/-! ## The directory that a way begins in -/

/-- To move a file does not move a working directory, which does not lie in it nor where it goes. -/
theorem afterMove_eq_self {w : WorkingDir} {source target : Location}
    (hw : d.tree.find? w.ground = some .directory)
    (hsource : d.tree.find? source ≠ some .directory)
    (htarget : d.tree.find? target ≠ some .directory) : w.afterMove source target = w := by
  -- what the working directory lies in are directories
  have hapart : ∀ {place : Location}, d.tree.find? place ≠ some .directory →
      ¬ place <:+ w.ground := fun hplace hsuf => hplace (FileTree.directory_above hw hsuf)
  have hs : ¬ source <:+ w.ground := hapart hsource
  have ht : ¬ target <:+ w.ground := hapart htarget
  rw [WorkingDir.afterMove, WorkingDir.afterErase, if_neg ht]
  cases w with
  | standing here => exact congrArg WorkingDir.standing (FileTree.relocate_of_not_suffix hs)
  | removed depth above =>
    exact congrArg (WorkingDir.removed depth) (FileTree.relocate_of_not_suffix hs)

/-! ## Directories and their entries -/

/-- A way that ends with an entry of a directory does not end outside of the tree. -/
theorem goto_concat_down_ne_outside {w : WorkingDir} {front : List Step} {name : String} :
    d.goto w (front ++ [.down name]) ≠ .error .outside := fun h =>
  (goto_eq_outside_iff.1 h).ne_down (List.mem_append_right _ (List.mem_singleton_self _)) name rfl

/-- What stands at the path to an entry of a directory stands in the tree. -/
theorem find?_eq_some_iff_of_join (hdir : dir ≠ "") (hx : Path.IsName x) {found : Entry} :
    d.find? (dir.join x) = some found ↔
      ∃ k, d.locate (dir.join x) = .ok k ∧ d.tree.find? k = some found := by
  have hout : d.locate (dir.join x) ≠ .error .outside := by
    obtain ⟨front, hjoin, -⟩ := Path.exists_steps_join hdir hx
    rw [locate_eq d (Path.join_ne_empty dir hx), hjoin]
    split
    · exact goto_concat_down_ne_outside
    · simp
  rw [find?]
  cases hk : d.locate (dir.join x) with
  | ok k => simp
  | error astray => cases astray <;> simp_all

/-- A path leads to a directory of the tree. -/
structure DirAt (d : Disk) (p : Path) (l : Location) : Prop where
  found : d.locate p = .ok l
  stands : d.tree.find? l = some .directory

/-- The name may be that of an entry of a directory, and the path to such an entry may be followed.
-/
structure TakesEntry (d : Disk) (dir : Path) (x : String) : Prop where
  path : d.takesPath (dir.join x) = true
  name : d.takesName x = true

/-- Nothing but the tree has become another, as far as a path is concerned, and `view` is what is in
it now. -/
structure Became (p : Path) (d e : Disk) (view : Location → Option Entry) : Prop where
  limits : SameLimits d e
  origin : e.origin p = d.origin p
  view : e.tree.find? = view

/-- Disks with the same limits take the same entries. -/
theorem SameLimits.takesEntry (h : SameLimits d e) (ht : d.TakesEntry dir x) :
    e.TakesEntry dir x :=
  ⟨by rw [← h.takesPath_eq]; exact ht.path, by rw [← h.takesName_eq]; exact ht.name⟩

namespace DirAt

theorem ne_empty (h : d.DirAt p l) : p ≠ "" := ne_empty_of_locate h.found

theorem lead? (h : d.DirAt p l) : d.lead? p = some l := lead?_of_locate h.found

/-- On the way to a directory there are directories only. -/
theorem directory (h : d.DirAt p l) (hk : k ∈ d.visits p) : d.tree.find? k = some .directory :=
  directory_of_locate h.found h.stands hk

/-- The way to a directory goes on from a directory. -/
theorem ground (h : d.DirAt p l) : d.tree.find? (d.origin p).ground = some .directory :=
  h.directory (WorkingDir.ground_mem_visits h.lead?)

theorem directory_of_ground (h : d.DirAt p l) (hsuf : s <:+ (d.origin p).ground) :
    d.tree.find? s = some .directory := FileTree.directory_above h.ground hsuf

/-- A directory is seen at its path. -/
theorem kind? (h : d.DirAt p l) : d.kind? p = some .directory := by
  rw [Disk.kind?, Disk.find?, h.found]
  simp [h.stands]

/-- A path goes on leading to a directory as long as those on its way stay. -/
theorem mono (h : d.DirAt p l) (hlim : SameLimits d e) (horigin : e.origin p = d.origin p)
    (hdirs : ∀ k ∈ d.visits p, e.tree.find? k = some .directory) : e.DirAt p l :=
  ⟨locate_mono hlim horigin h.found fun k hk _ => hdirs k hk,
    hdirs l (WorkingDir.mem_visits_of_lead (lead?_of_locate h.found))⟩

/-- From a directory the path goes on to its entries. -/
theorem locate_join (h : d.DirAt dir s) (hx : Path.IsName x) :
    d.locate (dir.join x) = .ok k ↔ d.TakesEntry dir x ∧ k = x :: s := by
  rw [locate_join_eq_ok_iff h.ne_empty hx]
  constructor
  · rintro ⟨hpath, hname, l, hl, -, rfl⟩
    obtain rfl : s = l := Except.ok.inj (h.found.symm.trans hl)
    exact ⟨⟨hpath, hname⟩, rfl⟩
  · rintro ⟨htakes, rfl⟩
    exact ⟨htakes.path, htakes.name, s, h.found, h.stands, rfl⟩

/-- A directory that is an entry lies in one to which the path before leads. -/
theorem of_join (h : d.DirAt (dir.join x) l) (hdir : dir ≠ "") (hx : Path.IsName x) :
    ∃ s, d.DirAt dir s ∧ l = x :: s ∧ d.TakesEntry dir x := by
  obtain ⟨hpath, hname, s, hs, hdirs, rfl⟩ := (locate_join_eq_ok_iff hdir hx).1 h.found
  exact ⟨s, ⟨hs, hdirs⟩, rfl, hpath, hname⟩

/-- Files come and go without a directory being touched. -/
theorem became {view : Location → Option Entry} (h : d.DirAt p l) (hbecame : Became p d e view)
    (hview : ∀ k, d.tree.find? k = some .directory → view k = some .directory) : e.DirAt p l := by
  refine h.mono hbecame.limits hbecame.origin fun k hk => ?_
  rw [hbecame.view]
  exact hview k (h.directory hk)

/-- A path goes on leading to its directory when a file comes to stand elsewhere. -/
theorem became_file {content : Bytes} (h : d.DirAt p l)
    (hbecame : Became p d e (Function.update d.tree.find? k (some (.file content))))
    (hfree : d.tree.find? k ≠ some .directory) : e.DirAt p l := by
  refine h.became hbecame fun k' hk' => ?_
  rw [Function.update_of_ne, hk']
  rintro rfl
  exact hfree hk'

end DirAt

/-! ## Files in a directory -/

section Entries

variable (h : d.DirAt dir s) (hx : Path.IsName x)

include h hx

/-- An empty file may be put in place of anything but a directory. -/
theorem create_taken (htakes : d.TakesEntry dir x)
    (hfree : d.tree.find? (x :: s) ≠ some .directory) :
    (d.create (dir.join x)).1 = true ∧ Became dir d (d.create (dir.join x)).2
      (Function.update d.tree.find? (x :: s) (some (.file []))) := by
  have hfound : d.locate (dir.join x) = .ok (x :: s) := (h.locate_join hx).2 ⟨htakes, rfl⟩
  have hcreate : d.create (dir.join x) =
      (true, { d with tree := d.tree.insert (x :: s) (.file []) }) := by
    rw [create, hfound]
    simp [hfree]
  rw [hcreate]
  exact ⟨rfl, ⟨rfl, rfl⟩, rfl,
    FileTree.find?_insert_eq_update (List.cons_ne_nil x s) h.stands hfree (.file [])⟩

/-- A file may be put in place of anything but a directory. -/
theorem create_fill (htakes : d.TakesEntry dir x)
    (hfree : d.tree.find? (x :: s) ≠ some .directory) (content : Bytes) :
    (d.create (dir.join x)).1 = true ∧
      Became dir d ((d.create (dir.join x)).2.fill (dir.join x) content)
        (Function.update d.tree.find? (x :: s) (some (.file content))) := by
  have hfound : d.locate (dir.join x) = .ok (x :: s) := (h.locate_join hx).2 ⟨htakes, rfl⟩
  obtain ⟨hgranted, hlimits, horigin, hempty⟩ := create_taken h hx htakes hfree
  generalize d.create (dir.join x) = created at *
  obtain ⟨_, made⟩ := created
  simp only at hgranted hlimits horigin hempty ⊢
  have hdirs : ∀ k, d.tree.find? k = some .directory → made.tree.find? k = some .directory := by
    intro k hk
    rw [hempty, Function.update_of_ne, hk]
    rintro rfl
    exact hfree hk
  -- the way to the file is still open once it is created, so that it is filled at that place
  have hagain : made.locate (dir.join x) = .ok (x :: s) := by
    refine locate_mono hlimits ?_ hfound fun k _ => hdirs k
    rw [origin_join h.ne_empty hx, origin_join h.ne_empty hx, horigin]
  have hfile : made.tree.find? (x :: s) = some (.file []) := by rw [hempty, Function.update_self]
  have hfull := FileTree.find?_insert_eq_update (List.cons_ne_nil x s) (hdirs _ h.stands)
    (by simp [hfile]) (.file content)
  have hfill : made.fill (dir.join x) content =
      { made with tree := made.tree.insert (x :: s) (.file content) } := by
    rw [fill, hagain]
    simp only [hfile]
  rw [hfill]
  refine ⟨hgranted, ⟨hlimits.1, hlimits.2⟩, horigin, ?_⟩
  rw [hfull, hempty, Function.update_idem]

/-- A file is not created at a name that is not taken, or that is a directory. -/
theorem create_refused
    (hno : d.TakesEntry dir x → d.tree.find? (x :: s) = some .directory) :
    d.create (dir.join x) = (false, d) := by
  rw [create]
  cases hp : d.locate (dir.join x) with
  | error astray => rfl
  | ok k =>
    obtain ⟨htakes, rfl⟩ := (h.locate_join hx).1 hp
    simp [hno htakes]

/-- What is seen at the path to an entry stands in the tree. -/
theorem find?_join_eq_some_iff {found : Entry} : d.find? (dir.join x) = some found ↔
    d.TakesEntry dir x ∧ d.tree.find? (x :: s) = some found := by
  rw [find?_eq_some_iff_of_join h.ne_empty hx]
  constructor
  · rintro ⟨k, hk, hfound⟩
    obtain ⟨htakes, rfl⟩ := (h.locate_join hx).1 hk
    exact ⟨htakes, hfound⟩
  · rintro ⟨htakes, hfound⟩
    exact ⟨x :: s, (h.locate_join hx).2 ⟨htakes, rfl⟩, hfound⟩

end Entries

/-! ## Moving a file -/

section Rename

variable {dir' : Path} {s' : Location} {y : String} {content : Bytes} (h : d.DirAt dir s)
  (hx : Path.IsName x) (h' : d.DirAt dir' s') (hy : Path.IsName y) (htakes : d.TakesEntry dir x)
  (hfile : d.tree.find? (x :: s) = some (.file content))

include h hx h' hy htakes hfile

/-- A file is moved to where its target path leads. -/
theorem rename_eq_of_file : d.rename (dir.join x) (dir'.join y) =
    match d.locate (dir.join x), d.locate (dir'.join y) with
    | .ok a, .ok b =>
      if (d.tree.find? a).isNone then (false, d)
      else if a = b then (true, d)
      else if d.mayReplace a b then
        (true, { d with tree := d.tree.move a b, here := d.here.afterMove a b })
      else (false, d)
    | _, _ => (false, d) := by
  have hkind : d.kind? (dir.join x) ≠ some .directory := by
    rw [Disk.kind?, (find?_join_eq_some_iff h hx).2 ⟨htakes, hfile⟩]
    simp
  cases hsource : d.locate (dir.join x) <;> cases htarget : d.locate (dir'.join y) <;>
    simp [rename, Path.endsInName_join h.ne_empty hx, Path.endsInName_join h'.ne_empty hy, hkind,
      hsource, htarget]

/-- A file may take any place but that of a directory, and leaves its own. -/
theorem rename_file (htakes' : d.TakesEntry dir' y)
    (hfree : d.tree.find? (y :: s') ≠ some .directory) (hne : x :: s ≠ y :: s') :
    (d.rename (dir.join x) (dir'.join y)).1 = true ∧
      Became dir d (d.rename (dir.join x) (dir'.join y)).2
        (Function.update (Function.update d.tree.find? (x :: s) none) (y :: s')
          (some (.file content))) := by
  have hsource : d.locate (dir.join x) = .ok (x :: s) := (h.locate_join hx).2 ⟨htakes, rfl⟩
  have htarget : d.locate (dir'.join y) = .ok (y :: s') := (h'.locate_join hy).2 ⟨htakes', rfl⟩
  have hmay : d.mayReplace (x :: s) (y :: s') = true := by
    rw [mayReplace, hfile]
    cases hy : d.tree.find? (y :: s') with
    | none => rfl
    | some found =>
      cases found with
      | file old => rfl
      | directory => exact absurd hy hfree
  have hrename : d.rename (dir.join x) (dir'.join y) =
      (true, { d with
        tree := d.tree.move (x :: s) (y :: s')
        here := d.here.afterMove (x :: s) (y :: s') }) := by
    rw [rename_eq_of_file h hx h' hy htakes hfile, htarget]
    simp [hsource, hfile, hne, hmay]
  -- neither place is above the working directory, so it stays where it is
  have hground := h.ground
  rw [hrename]
  refine ⟨rfl, ⟨rfl, rfl⟩, ?_, ?_⟩
  · rw [origin] at hground ⊢
    rw [origin]
    split
    · rfl
    · rename_i hrel
      rw [if_neg hrel] at hground
      exact afterMove_eq_self hground (by simp [hfile]) hfree
  · exact FileTree.find?_move_eq_update hfile (List.cons_ne_nil y s') h'.stands hfree hne

/-- A file is not moved to a name that is not taken, or that is a directory. -/
theorem rename_refused
    (hno : d.TakesEntry dir' y → d.tree.find? (y :: s') = some .directory) :
    d.rename (dir.join x) (dir'.join y) = (false, d) := by
  have hsource : d.locate (dir.join x) = .ok (x :: s) := (h.locate_join hx).2 ⟨htakes, rfl⟩
  rw [rename_eq_of_file h hx h' hy htakes hfile]
  cases hk : d.locate (dir'.join y) with
  | error astray => simp
  | ok k =>
    obtain ⟨htakes', rfl⟩ := (h'.locate_join hy).1 hk
    have hdirectory := hno htakes'
    have hne : x :: s ≠ y :: s' := by
      intro heq
      rw [← heq, hfile] at hdirectory
      exact absurd hdirectory (by simp)
    have hmay : d.mayReplace (x :: s) (y :: s') = false := by
      rw [mayReplace, hfile, hdirectory]
    rw [hsource]
    simp [hfile, hne, hmay]

end Rename

end Disk

end FlatWeights
