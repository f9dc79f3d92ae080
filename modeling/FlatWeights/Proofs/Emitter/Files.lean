import FlatWeights.Proofs.Emitter.Stage
import Mathlib.Data.List.Nodup

/-!
The files of a run. Of the outputs that were given to an emitter, the last one of a name is what
counts; `lastFile?` is the file that it asks for. While a run is going on these files are in the
staging directory, as if they had been laid over what was there when it began: `overlay` says so for
the view of a tree, and `Staged` for the disk.
-/

set_option autoImplicit false

namespace FlatWeights

open Emitter

/-! ## What outputs ask for -/

/-- The file that an output asks for, if its lengths have room in the header. -/
def OutputTensor.file? (t : OutputTensor) : Option Bytes :=
  (WeightFile.Header.ofDims? t.dims).map fun header => WeightFile.encode header t.data

/-- The last one of the outputs that ask for a file of the given name. -/
def lastOutput? (outs : List OutputTensor) (x : String) : Option OutputTensor :=
  outs.reverse.find? fun t => fileName t.name == x

/-- What the last one of the outputs for a file of the given name asks to be in it. -/
def lastFile? (outs : List OutputTensor) (x : String) : Option Bytes :=
  (lastOutput? outs x).bind OutputTensor.file?

variable {outs : List OutputTensor} {t : OutputTensor} {x : String} {content : Bytes}

/-- One more output is the last one of its name. -/
theorem lastOutput?_concat (outs : List OutputTensor) (t : OutputTensor) (x : String) :
    lastOutput? (outs ++ [t]) x = if fileName t.name = x then some t else lastOutput? outs x := by
  rw [lastOutput?, lastOutput?, List.reverse_concat, List.find?_cons]
  by_cases hx : fileName t.name = x
  · simp [hx]
  · rw [if_neg hx, beq_eq_false_iff_ne.2 hx]

/-- One more output gives the file of its name, if it gives one. -/
theorem lastFile?_concat (outs : List OutputTensor) (t : OutputTensor) (x : String) :
    lastFile? (outs ++ [t]) x = if fileName t.name = x then t.file? else lastFile? outs x := by
  rw [lastFile?, lastFile?, lastOutput?_concat]
  split <;> rfl

/-- The files of outputs change with one more output under its name alone. -/
theorem lastFile?_concat_eq_update (outs : List OutputTensor) (t : OutputTensor) :
    lastFile? (outs ++ [t]) = Function.update (lastFile? outs) (fileName t.name) t.file? := by
  funext x
  rw [lastFile?_concat, Function.update_apply]
  simp only [eq_comm]

/-- The last output of a name is one of the outputs. -/
theorem exists_of_lastOutput? (h : lastOutput? outs x = some t) :
    t ∈ outs ∧ fileName t.name = x := by
  have hmem := List.mem_of_find?_eq_some h
  have hname := List.find?_some h
  exact ⟨List.mem_reverse.1 hmem, by simpa using hname⟩

/-- The last file of a name is that of one of the outputs. -/
theorem exists_of_lastFile? (h : lastFile? outs x = some content) :
    ∃ t ∈ outs, fileName t.name = x ∧ t.file? = some content := by
  obtain ⟨t, ht, hfile⟩ := Option.bind_eq_some_iff.1 h
  obtain ⟨hmem, hname⟩ := exists_of_lastOutput? ht
  exact ⟨t, hmem, hname, hfile⟩

/-- There is a last output for the file of every output. -/
theorem exists_lastOutput? (h : t ∈ outs) :
    ∃ last, lastOutput? outs (fileName t.name) = some last := by
  rw [← Option.isSome_iff_exists, lastOutput?, List.find?_isSome]
  exact ⟨t, List.mem_reverse.2 h, by simp⟩

/-- Where no name is given twice, every output is the last one of its name. -/
theorem lastOutput?_of_nodup (hnodup : (outs.map (·.name)).Nodup) (h : t ∈ outs) :
    lastOutput? outs (fileName t.name) = some t := by
  obtain ⟨last, hlast⟩ := exists_lastOutput? h
  obtain ⟨hmem, hname⟩ := exists_of_lastOutput? hlast
  rw [hlast, List.inj_on_of_nodup_map hnodup hmem h (fileName_injective hname)]

/-- Every output that gives a file leaves one under its name. -/
theorem exists_lastFile? (hfiles : ∀ t ∈ outs, (t.file?).isSome) (h : t ∈ outs) :
    ∃ content, lastFile? outs (fileName t.name) = some content := by
  obtain ⟨last, hlast⟩ := exists_lastOutput? h
  obtain ⟨content, hcontent⟩ :=
    Option.isSome_iff_exists.1 (hfiles last (exists_of_lastOutput? hlast).1)
  exact ⟨content, by rw [lastFile?, hlast]; exact hcontent⟩

/-! ## Files laid over a view -/

/-- A view of a tree with files laid over the entries of one place. -/
def overlay (place : Location) (files : String → Option Bytes) (view : Location → Option Entry) :
    Location → Option Entry
  | [] => view []
  | x :: above =>
    if above = place then ((files x).map Entry.file).or (view (x :: above)) else view (x :: above)

variable {place : Location} {files : String → Option Bytes} {view : Location → Option Entry}
  {k : Location}

@[simp] theorem overlay_entry : overlay place files view (x :: place) =
    ((files x).map Entry.file).or (view (x :: place)) := by
  rw [overlay, if_pos rfl]

/-- What is not directly in the directory is seen as before. -/
theorem overlay_of_ne (h : ∀ x, k ≠ x :: place) : overlay place files view k = view k := by
  cases k with
  | nil => rfl
  | cons x above =>
    rw [overlay, if_neg]
    rintro rfl
    exact h x rfl

/-- What does not lie in the directory is seen as before. -/
theorem overlay_of_not_suffix (h : ¬ place <:+ k) : overlay place files view k = view k := by
  refine overlay_of_ne fun x hk => h ?_
  rw [hk]
  exact List.suffix_cons x place

/-- Two views that agree at a place agree there with files laid over them. -/
theorem overlay_congr {view' : Location → Option Entry} (h : view k = view' k) :
    overlay place files view k = overlay place files view' k := by
  cases k with
  | nil => exact h
  | cons x above => rw [overlay, overlay, h]

/-- No files lie over nothing. -/
@[simp] theorem overlay_none : overlay place (fun _ => none) view = view := by
  funext k
  cases k with
  | nil => rfl
  | cons x above => simp [overlay]

/-- One more file changes the view at its place. -/
theorem overlay_update (x : String) (content : Bytes) :
    overlay place (Function.update files x (some content)) view =
      Function.update (overlay place files view) (x :: place) (some (.file content)) := by
  funext k
  rw [Function.update_apply]
  cases k with
  | nil => rfl
  | cons y above =>
    by_cases hplace : above = place
    · subst hplace
      rw [overlay_entry, overlay_entry, Function.update_apply]
      by_cases hy : y = x
      · simp [hy]
      · simp [hy]
    · simp [overlay, hplace]

/-- What lies at a place is what was laid there, or else what was there. -/
theorem overlay_eq_file (h : files x = some content) :
    overlay place files view (x :: place) = some (.file content) := by
  rw [overlay_entry, h]
  rfl

/-- A place over which no file lies is seen as before. -/
theorem overlay_eq_of_none (h : files x = none) :
    overlay place files view (x :: place) = view (x :: place) := by
  rw [overlay_entry, h]
  rfl

/-- To lay the same files over a view once more changes nothing. -/
@[simp] theorem overlay_overlay :
    overlay place files (overlay place files view) = overlay place files view := by
  funext k
  cases k with
  | nil => rfl
  | cons x above =>
    by_cases hplace : above = place
    · subst hplace
      rw [overlay_entry, overlay_entry]
      cases files x <;> rfl
    · simp only [overlay, if_neg hplace]

/-- A place that is not that of a file of some outputs shows what was there. -/
theorem overlay_of_no_output (h : ∀ t ∈ outs, k ≠ fileName t.name :: place) :
    overlay place (lastFile? outs) view k = view k := by
  by_cases hk : ∃ x, k = x :: place
  · obtain ⟨x, rfl⟩ := hk
    -- a file of that name would be the file of one of the outputs
    refine overlay_eq_of_none ?_
    rw [← Option.not_isSome_iff_eq_none, Option.isSome_iff_exists]
    rintro ⟨content, hcontent⟩
    obtain ⟨t, ht, rfl, -⟩ := exists_of_lastFile? hcontent
    exact h t ht rfl
  · exact overlay_of_ne fun x hx => hk ⟨x, hx⟩

/-- Files do not hide directories if there are none where they are laid. -/
theorem overlay_eq_directory_iff
    (hfree : ∀ x content, files x = some content → view (x :: place) ≠ some .directory) :
    overlay place files view k = some .directory ↔ view k = some .directory := by
  by_cases hk : ∃ x, k = x :: place
  · obtain ⟨x, rfl⟩ := hk
    cases hx : files x with
    | none => rw [overlay_eq_of_none hx]
    | some content =>
      rw [overlay_eq_file hx]
      exact ⟨fun h => absurd h (by simp), fun h => absurd h (hfree x content hx)⟩
  · rw [overlay_of_ne fun x hx => hk ⟨x, hx⟩]

namespace Disk

variable {d d₁ e : Disk} {base : Path} {buffer : Nat} {output : OutputSettings} {l : Location}

/-! ## The disk while a run is going on -/

/-- The disk is what it was when the run began, with the files of some outputs laid over the staging
directory. -/
structure Staged (base : Path) (output : OutputSettings) (l : Location) (d₁ : Disk)
    (outs : List OutputTensor) (d : Disk) : Prop where
  limits : SameLimits d₁ d
  origin : d.origin (stagingPath base output) = d₁.origin (stagingPath base output)
  view : d.tree.find? = overlay (".staging" :: l) (lastFile? outs) d₁.tree.find?
  names : ∀ t ∈ outs, validOutputName t.name = true
  files : ∀ t ∈ outs, (t.file?).isSome
  places : ∀ t ∈ outs, d₁.HasPlace base output l t.name

/-- Before the first output nothing is staged. -/
theorem staged_nil (d₁ : Disk) : Staged base output l d₁ [] d₁ where
  limits := .refl d₁
  origin := rfl
  view := by
    have hnil : lastFile? [] = fun _ => none := rfl
    rw [hnil, overlay_none]
  names := by simp
  files := by simp
  places := by simp

namespace Staged

variable (h : Staged base output l d₁ outs d)

include h

/-- Staging files neither makes a directory nor takes one away. -/
theorem directory_iff : d.tree.find? k = some .directory ↔ d₁.tree.find? k = some .directory := by
  rw [h.view]
  refine overlay_eq_directory_iff fun x content hx => ?_
  obtain ⟨t, ht, rfl, -⟩ := exists_of_lastFile? hx
  exact (h.places t ht).file.2

/-- The staging directory is where it was. -/
theorem dirAt (h₁ : d₁.DirAt (stagingPath base output) (".staging" :: l)) :
    d.DirAt (stagingPath base output) (".staging" :: l) :=
  h₁.mono h.limits h.origin fun _ hk => h.directory_iff.2 (h₁.directory hk)

/-- A file has a place in the staging directory if it had one at first. -/
theorem hasPlace_iff {name : String} :
    d.HasPlace base output l name ↔ d₁.HasPlace base output l name := by
  refine forall₂_congr fun x _ => and_congr ⟨fun ht => h.limits.symm.takesEntry ht,
    fun ht => h.limits.takesEntry ht⟩ ?_
  rw [ne_eq, ne_eq, h.directory_iff]

/-- A file fits if it did at first. -/
theorem fits_iff {name : String} :
    d.Fits base buffer output l name ↔ d₁.Fits base buffer output l name :=
  ⟨fun hfits => ⟨h.hasPlace_iff.1 hfits.place, hfits.room⟩,
    fun hfits => ⟨h.hasPlace_iff.2 hfits.place, hfits.room⟩⟩

/-- A file is barred if it was at first. -/
theorem barred_iff {name : String} :
    d.Barred base output l name ↔ d₁.Barred base output l name := by
  constructor
  · rintro ⟨hatomic, hvalid, htakes, hstands⟩
    exact ⟨hatomic, hvalid, h.limits.symm.takesEntry htakes, h.directory_iff.1 hstands⟩
  · rintro ⟨hatomic, hvalid, htakes, hstands⟩
    exact ⟨hatomic, hvalid, h.limits.takesEntry htakes, h.directory_iff.2 hstands⟩

/-- A disk on which the staging directory is still where it was in a run is so since the run began.
-/
theorem reached (hreached : Reached base output l d e) : Reached base output l d₁ e where
  staging := hreached.staging
  origin := hreached.origin.trans h.origin
  outside k hk := by
    rw [hreached.outside k hk, h.view, overlay_of_not_suffix hk]

theorem aside {stop : Stop} (haside : Aside base output l d stop) :
    Aside base output l d₁ stop :=
  ⟨haside.noMove, fun name hbarred => haside.noWrite name (h.barred_iff.2 hbarred)⟩

/-- No file is where an atomic write goes to first. -/
theorem clean (hinside : ∀ x content, d₁.tree.find? (x :: ".staging" :: l) ≠ some (.file content))
    (name : String) (content : Bytes) :
    d.tree.find? (tempName name :: ".staging" :: l) ≠ some (.file content) := by
  -- an output asks for a file whose name ends in `.bin`, and so never for this one
  have hnone : lastFile? outs (tempName name) = none := by
    rw [← Option.not_isSome_iff_eq_none, Option.isSome_iff_exists]
    rintro ⟨content, hcontent⟩
    obtain ⟨t, ht, heq, -⟩ := exists_of_lastFile? hcontent
    exact tempName_ne_fileName (h.names t ht) heq.symm
  rw [h.view, overlay_eq_of_none hnone]
  exact hinside _ _

/-- One more file is staged. -/
theorem concat (hname : validOutputName t.name = true) (hfile : t.file? = some content)
    (hplace : d₁.HasPlace base output l t.name)
    (hbecame : Became (stagingPath base output) d e (Function.update d.tree.find?
      (fileName t.name :: ".staging" :: l) (some (.file content)))) :
    Staged base output l d₁ (outs ++ [t]) e where
  limits := h.limits.trans hbecame.limits
  origin := hbecame.origin.trans h.origin
  view := by
    rw [hbecame.view, h.view, lastFile?_concat_eq_update, hfile, overlay_update]
  names t' ht' := by
    rcases List.mem_append.1 ht' with ht' | ht'
    · exact h.names t' ht'
    · rw [List.mem_singleton.1 ht', hname]
  files t' ht' := by
    rcases List.mem_append.1 ht' with ht' | ht'
    · exact h.files t' ht'
    · rw [List.mem_singleton.1 ht', hfile]
      rfl
  places t' ht' := by
    rcases List.mem_append.1 ht' with ht' | ht'
    · exact h.places t' ht'
    · rw [List.mem_singleton.1 ht']
      exact hplace

end Staged

end Disk

end FlatWeights
