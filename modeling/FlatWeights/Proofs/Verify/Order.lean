import FlatWeights.Proofs.Text.ByteOrder
import FlatWeights.Proofs.Verify

/-!
The order in which a check reports names. It goes through the entries of a directory in increasing
order and takes `.bin` off each of them, so what is in order are the names with that ending, and
not the names themselves: `h.0.bin` is listed before `h.bin`, as `0` comes before `b`, but `h.0` is
longer than `h` and comes after it.

Two names of which neither begins with the other differ at some character before their endings, and
the endings do not matter. So this is the only way in which the order is lost: a name, and another
one that goes on from it with something that comes before the ending (`Overtakes`).
-/

set_option autoImplicit false

namespace FlatWeights

open Emitter Text

/-! ## Endings -/

/-- Of two texts with one ending the smaller is smaller without it, or it goes on from the other one
with something that comes before the ending. -/
theorem Text.lt_of_append_lt_append {xs ys ending : List Char} (h : xs ++ ending < ys ++ ending) :
    xs < ys ∨ ∃ tail, xs = ys ++ tail ∧ tail ++ ending < ending := by
  induction xs generalizing ys with
  | nil =>
    cases ys with
    | nil => exact absurd h (List.lt_irrefl _)
    | cons d ys => exact .inl (List.nil_lt_cons ..)
  | cons c xs ih =>
    cases ys with
    | nil => exact .inr ⟨c :: xs, rfl, h⟩
    | cons d ys =>
      rw [List.cons_append, List.cons_append] at h
      rcases List.cons_lt_cons_iff.1 h with hlt | ⟨rfl, hrest⟩
      · exact .inl (List.cons_lt_cons_iff.2 (.inl hlt))
      · rcases ih hrest with hlt | ⟨tail, rfl, htail⟩
        · exact .inl (List.cons_lt_cons_iff.2 (.inr ⟨rfl, hlt⟩))
        · exact .inr ⟨tail, rfl, htail⟩

namespace VerifyReport

variable {s t tail : String}

/-- A file whose name goes on with `tail` from that of another file is listed before it. -/
def Overtakes (tail : String) : Prop := bytes (fileName tail) < bytes ".bin"

instance (tail : String) : Decidable (Overtakes tail) := inferInstanceAs (Decidable (_ < _))

theorem Overtakes.ne_empty (h : Overtakes tail) : tail ≠ "" := by
  rintro rfl
  exact absurd h (by decide)

theorem Overtakes.lt (h : Overtakes tail) (s : String) : s < s ++ tail := by
  obtain ⟨c, rest, htail⟩ := List.exists_cons_of_ne_nil (mt String.toList_eq_nil_iff.1 h.ne_empty)
  have hlonger : s.toList ++ [] < s.toList ++ tail.toList := by
    rw [htail]
    exact List.append_left_lt (List.nil_lt_cons c rest)
  rwa [List.append_nil, ← String.toList_append, ← String.lt_iff] at hlonger

theorem Overtakes.fileName_lt (h : Overtakes tail) (s : String) :
    fileName (s ++ tail) < fileName s := by
  rw [Overtakes, bytes_lt_iff, String.lt_iff] at h
  rw [String.lt_iff, toList_fileName s, fileName, String.toList_append, String.toList_append,
    List.append_assoc, ← String.toList_append]
  exact List.append_left_lt h

/-- Of two names the one whose file is listed first is smaller, or it goes on from the other one
with something that overtakes. -/
theorem lt_of_fileName_lt (h : fileName s < fileName t) :
    s < t ∨ ∃ tail, s = t ++ tail ∧ Overtakes tail := by
  rw [String.lt_iff, toList_fileName, toList_fileName] at h
  rcases Text.lt_of_append_lt_append h with hlt | ⟨tail, hs, htail⟩
  · exact .inl (String.lt_iff.2 hlt)
  · refine .inr ⟨String.ofList tail, ?_, ?_⟩
    · rw [← String.toList_inj, hs]
      simp
    · rw [Overtakes, bytes_lt_iff, String.lt_iff, toList_fileName, String.toList_ofList]
      exact htail

/-- Names in the order of their files are in order themselves exactly if none overtakes another. -/
theorem pairwise_lt_iff {names : List String}
    (h : names.Pairwise fun s t => fileName s < fileName t) :
    names.Pairwise (· < ·) ↔ ∀ s ∈ names, ∀ tail, Overtakes tail → s ++ tail ∉ names := by
  constructor
  · intro hsorted s hs tail hover hlonger
    obtain ⟨front, back, rfl⟩ := List.append_of_mem hs
    -- wherever the longer name stands, one of the two orders is wrong there
    rcases List.mem_append.1 hlonger with hfront | hback
    · have hlt := (List.pairwise_append.1 hsorted).2.2 _ hfront s List.mem_cons_self
      exact String.lt_asymm hlt (hover.lt s)
    · rcases List.mem_cons.1 hback with heq | hback
      · exact hover.ne_empty (by simpa using heq)
      · have hlater := (List.pairwise_cons.1 (List.pairwise_append.1 h).2.1).1 _ hback
        exact String.lt_asymm hlater (hover.fileName_lt s)
  · intro hnone
    refine h.imp_of_mem fun {s t} hs ht hlt => ?_
    rcases lt_of_fileName_lt hlt with hless | ⟨tail, rfl, hover⟩
    · exact hless
    · exact absurd hs (hnone t ht tail hover)

end VerifyReport

namespace Disk

variable {d : Disk} {base dir p : Path} {buffer : Nat} {report : VerifyReport}

/-- The entries of a directory are in increasing order. -/
theorem pairwise_names (d : Disk) (p : Path) : (d.names p).Pairwise (· < ·) := by
  rw [names]
  split
  · exact .nil
  · split
    · exact d.tree.pairwise_names _
    · exact .nil

/-- Names are reported in the order of their files. -/
theorem pairwise_shown (d : Disk) (p : Path) :
    (d.shown p).Pairwise fun s t => fileName s < fileName t := by
  refine (d.pairwise_names p).filterMap _ fun entry entry' hlt s hs t ht => ?_
  obtain ⟨rfl, -⟩ := VerifyReport.stem?_eq_some_iff.1 hs
  obtain ⟨rfl, -⟩ := VerifyReport.stem?_eq_some_iff.1 ht
  exact hlt

/-- **In which order names are reported.** Their files are in the order of the bytes. The names are
exactly if none of them is reported together with one that goes on from it and overtakes it. -/
theorem reported_in_order
    (h : (d.outcome (VerifyReport.ofDirectory (Storage.below base buffer) dir)).1 = .ok report) :
    report.files.Pairwise (fun s t => bytes (fileName s) < bytes (fileName t)) ∧
      (report.files.Pairwise (fun s t => bytes s < bytes t) ↔
        ∀ s ∈ report.files, ∀ tail, VerifyReport.Overtakes tail → s ++ tail ∉ report.files) := by
  have hkind : d.kind? (base.join dir) = some .directory := by
    by_contra hne
    obtain ⟨stop, hstop⟩ := outcome_ofDirectory_of_ne buffer hne
    rw [hstop] at h
    exact absurd h (by simp)
  simp only [bytes_lt_iff]
  obtain ⟨-, -, rfl⟩ := (outcome_ofDirectory_eq_ok_iff hkind).1 h
  have hfiles := d.pairwise_shown (base.join dir)
  exact ⟨hfiles, VerifyReport.pairwise_lt_iff hfiles⟩

/-- A directory with the weight files of a name and of one that goes on from it. -/
def continued : Disk :=
  let file (x : Element) : Entry := .file (WeightFile.encode ⟨⟨1, 1, 1⟩⟩ [x])
  { blank with tree := ((FileTree.empty.insert ["out"] .directory).insert
      ["h.bin", "out"] (file 1)).insert ["h.0.bin", "out"] (file 2) }

/-- `h.0.bin` is listed before `h.bin`, and so is `h.0` before `h`. -/
theorem reported_in_order_continued :
    (continued.outcome (VerifyReport.ofDirectory belowHere "out")).1 =
        .ok ⟨["h.0", "h"], 8⟩ ∧
      ¬ ["h.0", "h"].Pairwise fun s t => bytes s < bytes t := by
  have hreport : (continued.outcome (VerifyReport.ofDirectory belowHere "out")).1 =
      .ok ⟨["h.0", "h"], 8⟩ := by
    decide +kernel
  obtain ⟨-, hiff⟩ := reported_in_order hreport
  refine ⟨hreport, fun hsorted => ?_⟩
  exact hiff.1 hsorted "h" (by decide) ".0" (by decide) (by decide)

end Disk

end FlatWeights
