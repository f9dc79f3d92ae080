import FlatWeights.Path
import Mathlib.Data.List.DropRight
import Mathlib.Data.List.TakeWhile
import Mathlib.Logic.Basic

/-!
What becomes of the pieces of a path when a name is put behind it, when its end slashes are taken
away, and when it is cut back to the directory that leads to it. Following a path only ever looks at
its steps and at whether it begins at the root, so each statement here is about those two.

Splitting at slashes is `List.splitOn`, and everything about pieces comes from the laws of the
library for it: the pieces make up the path, and pieces without slashes are the pieces of what they
make up.
-/

set_option autoImplicit false

namespace FlatWeights.Path

/-! ## Pieces -/

/-- A path is split as the library splits a list at an element. -/
theorem splitSlash_eq_splitOn (text : List Char) : splitSlash text = text.splitOn '/' := by
  induction text with
  | nil => rfl
  | cons c text ih =>
    rw [splitSlash, List.splitOn_cons_eq_if_modifyHead, ih]
    by_cases hc : c = '/'
    · simp [hc]
    · rw [if_neg hc, if_neg (by simpa using hc)]
      cases htext : text.splitOn '/' with
      | nil => exact absurd htext (List.splitOn_ne_nil _ _)
      | cons piece pieces => rfl

theorem pieces_ne_nil (p : Path) : pieces p ≠ [] := by
  rw [pieces, splitSlash_eq_splitOn, ne_eq, List.map_eq_nil_iff]
  exact List.splitOn_ne_nil _ _

/-- No piece has a slash in it. -/
theorem slash_notMem_of_mem_pieces {p : Path} {piece : String} (h : piece ∈ pieces p) :
    '/' ∉ piece.toList := by
  -- the first part grows by a character that is no slash, and a slash begins a new part
  have hsplit : ∀ text : List Char, ∀ part ∈ splitSlash text, '/' ∉ part := by
    intro text
    induction text with
    | nil => simp [splitSlash]
    | cons c text ih =>
      intro part hpart
      rw [splitSlash] at hpart
      split at hpart
      · rcases List.mem_cons.1 hpart with rfl | hpart
        · simp
        · exact ih part hpart
      · rename_i hc
        split at hpart
        · have hpart : part = [c] := by simpa using hpart
          simpa [hpart] using Ne.symm hc
        · rename_i first rest hrest
          rw [hrest] at ih
          rcases List.mem_cons.1 hpart with rfl | hpart
          · simpa [Ne.symm hc] using ih first (by simp)
          · exact ih part (by simp [hpart])
  obtain ⟨part, hpart, rfl⟩ := List.mem_map.1 h
  simpa using hsplit p.toList part hpart

/-- The pieces of a path make it up. -/
theorem intercalate_pieces (p : Path) : String.intercalate "/" (pieces p) = p := by
  rw [← String.toList_inj, String.toList_intercalate, pieces, splitSlash_eq_splitOn, List.map_map]
  have hid : String.toList ∘ String.ofList = id := by funext text; simp
  rw [hid, List.map_id]
  exact List.intercalate_splitOn '/'

/-- Pieces without slashes are the pieces of the path that they make up. -/
theorem pieces_intercalate {l : List String} (hl : l ≠ []) (h : ∀ piece ∈ l, '/' ∉ piece.toList) :
    pieces (String.intercalate "/" l) = l := by
  have hparts : ∀ part ∈ l.map String.toList, '/' ∉ part := by simpa using h
  have hsep : "/".toList = ['/'] := rfl
  rw [pieces, splitSlash_eq_splitOn, String.toList_intercalate, hsep,
    List.splitOn_intercalate '/' hparts (by simpa using hl), List.map_map]
  have hid : String.ofList ∘ String.toList = id := by funext text; simp
  rw [hid, List.map_id]

/-- A slash between two paths puts their pieces together. -/
theorem pieces_append_slash (p q : Path) : pieces (p ++ "/" ++ q) = pieces p ++ pieces q := by
  have hsep : (p ++ "/" ++ q).toList = p.toList ++ '/' :: q.toList := by simp
  rw [pieces, splitSlash_eq_splitOn, hsep, List.splitOn_append_cons_self, List.map_append,
    ← splitSlash_eq_splitOn, ← splitSlash_eq_splitOn, pieces, pieces]

/-- A text without a slash is a single piece. -/
theorem pieces_of_slash_notMem {x : String} (h : '/' ∉ x.toList) : pieces x = [x] := by
  rw [pieces, splitSlash_eq_splitOn, List.splitOn_eq_singleton h]
  simp

/-- An absolute path begins with an empty piece, and has more pieces than that. -/
theorem isAbsolute_iff {p : Path} :
    isAbsolute p = true ↔ ∃ rest, rest ≠ [] ∧ pieces p = "" :: rest := by
  rw [isAbsolute, pieces, splitSlash_eq_splitOn]
  cases p.toList with
  | nil => simp
  | cons c text =>
    rw [List.splitOn_cons_eq_if_modifyHead]
    by_cases hc : c = '/'
    · simp [hc]
    · cases htext : text.splitOn '/' with
      | nil => exact absurd htext (List.splitOn_ne_nil _ _)
      | cons part parts => simp [hc, String.ext_iff]

/-! ## Names behind a directory -/

/-- A text that leads from a directory to one of its entries. -/
structure IsName (x : String) : Prop where
  noSlash : '/' ∉ x.toList
  notEmpty : x ≠ ""
  notHere : x ≠ "."
  notAbove : x ≠ ".."

namespace IsName

variable {x : String}

/-- A name does not begin at the root. -/
theorem not_isAbsolute (h : IsName x) : isAbsolute x = false := by
  rw [isAbsolute, beq_eq_false_iff_ne]
  intro hx
  exact h.noSlash (List.mem_of_mem_head? hx)

/-- A name leads down. -/
theorem stepOf_eq (h : IsName x) : stepOf x = .down x := by
  simp [stepOf, h.notEmpty, h.notHere, h.notAbove]

theorem pieces_eq (h : IsName x) : pieces x = [x] := pieces_of_slash_notMem h.noSlash

end IsName

/-- What stands between a directory and what is put behind it. -/
def gap (dir : Path) : String := if dir = "" ∨ dir.toList.getLast? = some '/' then "" else "/"

/-- What does not begin at the root stands behind the directory, and what is between them is a slash
or nothing. -/
theorem join_eq {dir x : Path} (hx : isAbsolute x = false) : dir.join x = dir ++ gap dir ++ x := by
  rw [join, hx, gap]
  by_cases h : dir = "" ∨ dir.toList.getLast? = some '/' <;> simp [h]

/-- A joined path ends with what was put behind the directory. -/
theorem exists_join_eq (dir p : Path) : ∃ front : String, dir.join p = front ++ p := by
  by_cases habs : isAbsolute p = true
  · exact ⟨"", by rw [join, if_pos habs, String.empty_append]⟩
  · exact ⟨dir ++ gap dir, join_eq (Bool.eq_false_iff.2 habs)⟩

/-- A name behind a directory is not the empty path. -/
theorem join_ne_empty {x : String} (dir : Path) (hx : IsName x) : dir.join x ≠ "" := by
  rw [join_eq hx.not_isAbsolute]
  intro h
  have hx' : x.toList = [] := by
    have := congrArg String.toList h
    simp only [String.toList_append] at this
    simp_all
  exact hx.notEmpty (String.toList_eq_nil_iff.1 hx')

/-- The pieces of a name behind a directory: the name is the last one, and the others are those of
the directory, but for the empty one after a slash at its end. -/
theorem exists_pieces_join {dir : Path} {x : String} (hdir : dir ≠ "") (hx : IsName x) :
    ∃ front, front ≠ [] ∧ pieces (dir.join x) = front ++ [x] ∧
      (pieces dir = front ∨ pieces dir = front ++ [""]) := by
  rw [join_eq hx.not_isAbsolute, gap]
  by_cases hend : dir.toList.getLast? = some '/'
  · obtain ⟨text, htext⟩ := List.getLast?_eq_some_iff.1 hend
    have hdir' : dir = String.ofList text ++ "/" := by
      rw [← String.toList_inj, htext]; simp
    refine ⟨pieces (String.ofList text), pieces_ne_nil _, ?_, .inr ?_⟩
    · rw [if_pos (.inr hend), hdir', String.append_empty, pieces_append_slash, hx.pieces_eq]
    · have h := pieces_append_slash (String.ofList text) ""
      rwa [String.append_empty, ← hdir'] at h
  · refine ⟨pieces dir, pieces_ne_nil _, ?_, .inl rfl⟩
    rw [if_neg (not_or.2 ⟨hdir, hend⟩), pieces_append_slash, hx.pieces_eq]

/-- The steps of a name behind a directory are those of the directory and the one to the name. -/
theorem exists_steps_join {dir : Path} {x : String} (hdir : dir ≠ "") (hx : IsName x) :
    ∃ front, steps (dir.join x) = front ++ [.down x] ∧
      (steps dir = front ∨ steps dir = front ++ [.stay]) := by
  obtain ⟨front, -, hjoin, hfront⟩ := exists_pieces_join hdir hx
  refine ⟨front.map stepOf, ?_, ?_⟩
  · rw [steps, hjoin, List.map_append, List.map_singleton, hx.stepOf_eq]
  · rcases hfront with h | h
    · exact .inl (by rw [steps, h])
    · exact .inr (by rw [steps, h, List.map_append]; rfl)

/-- Where a path begins does not depend on its end. -/
theorem isAbsolute_append {p : Path} (hp : p ≠ "") (q : String) :
    isAbsolute (p ++ q) = isAbsolute p := by
  obtain ⟨c, text, hc⟩ := List.exists_cons_of_ne_nil (mt String.toList_eq_nil_iff.1 hp)
  simp [isAbsolute, hc]

/-- A name behind a directory begins where the directory does. -/
theorem isAbsolute_join {dir : Path} {x : String} (hdir : dir ≠ "") (hx : IsName x) :
    isAbsolute (dir.join x) = isAbsolute dir := by
  rw [join_eq hx.not_isAbsolute, String.append_assoc, isAbsolute_append hdir]

/-- What has to stand behind a path depends on its end. -/
theorem gap_append (p : String) {q : Path} (hq : q ≠ "") : gap (p ++ q) = gap q := by
  obtain ⟨c, text, hc⟩ := List.exists_cons_of_ne_nil (mt String.toList_eq_nil_iff.1 hq)
  have hne : p ++ q ≠ "" := by
    intro h
    have := congrArg String.toList h
    simp [hc] at this
  have hlast : (p ++ q).toList.getLast? = q.toList.getLast? := by
    rw [String.toList_append, hc, List.getLast?_append]
    cases h : (c :: text).getLast? with
    | none => exact absurd h (by simp)
    | some last => rfl
  have hcongr : (p ++ q = "" ∨ (p ++ q).toList.getLast? = some '/') ↔
      (q = "" ∨ q.toList.getLast? = some '/') := by
    simp only [hne, hq, hlast, false_or]
  exact if_congr hcongr rfl rfl

/-- Behind a slash there is nothing to be put in between. -/
theorem gap_append_gap (base : Path) : gap (base ++ gap base) = "" := by
  by_cases hbase : base = "" ∨ base.toList.getLast? = some '/'
  · have h : gap base = "" := if_pos hbase
    rw [h, String.append_empty, h]
  · have h : gap base = "/" := if_neg hbase
    rw [h, gap_append base (by decide)]
    rfl

/-- Directories may be put together from either end. -/
theorem join_join {base dir x : Path} (hx : isAbsolute x = false) :
    base.join (dir.join x) = (base.join dir).join x := by
  by_cases hdir : dir = ""
  · have hrel : isAbsolute (join "" x) = false := by rwa [join_eq hx]
    subst hdir
    rw [join_eq hrel, join_eq (x := "") rfl, join_eq hx, join_eq hx, String.append_empty,
      gap_append_gap, String.append_empty]
    simp [gap]
  · have habs : isAbsolute (dir.join x) = isAbsolute dir := by
      rw [join_eq hx, String.append_assoc, isAbsolute_append hdir]
    by_cases h : isAbsolute dir = true
    · rw [join, if_pos (habs.trans h), join.eq_def base dir, if_pos h]
    · have h : isAbsolute dir = false := by simpa using h
      rw [join_eq (habs.trans h), join_eq hx, join_eq h, join_eq hx, gap_append _ hdir]
      simp only [String.append_assoc]

/-- Directories may be put together from either end, also if what follows takes their place. -/
theorem join_assoc (base dir x : Path) : base.join (dir.join x) = (base.join dir).join x := by
  by_cases hx : isAbsolute x = true
  · have hall : ∀ front : Path, front.join x = x := fun front => by rw [join, if_pos hx]
    rw [hall, hall, hall]
  · exact join_join (Bool.eq_false_iff.2 hx)

/-! ## A path and what leads to it -/

/-- A name behind a directory is the name of an entry. -/
theorem endsInName_join {dir : Path} {x : String} (hdir : dir ≠ "") (hx : IsName x) :
    endsInName (dir.join x) = true := by
  obtain ⟨front, -, hjoin, -⟩ := exists_pieces_join hdir hx
  simp [endsInName, hjoin, hx.notEmpty, hx.notHere, hx.notAbove]

/-- Between slashes there is nothing. -/
theorem eq_empty_of_mem_pieces_slashes {n : Nat} {piece : String}
    (h : piece ∈ pieces (String.ofList (List.replicate n '/'))) : piece = "" := by
  induction n with
  | zero => simpa [pieces, splitSlash] using h
  | succ n ih =>
    have hcons : String.ofList (List.replicate (n + 1) '/') =
        "" ++ "/" ++ String.ofList (List.replicate n '/') := by
      rw [← String.toList_inj]; simp [List.replicate_succ]
    rw [hcons, pieces_append_slash, List.mem_append] at h
    rcases h with h | h
    · simpa [pieces, splitSlash] using h
    · exact ih h

/-- A path is the one without its end slashes, and these. -/
theorem exists_withoutEndSlashes (p : Path) :
    ∃ n, p = withoutEndSlashes p ++ String.ofList (List.replicate n '/') := by
  have hrep : p.toList.reverse.takeWhile (· == '/') =
      List.replicate (p.toList.reverse.takeWhile (· == '/')).length '/' :=
    List.eq_replicate_of_mem fun c hc => by simpa using List.mem_takeWhile_imp hc
  have hsplit := List.takeWhile_append_dropWhile (p := (· == '/')) (l := p.toList.reverse)
  generalize (p.toList.reverse.takeWhile (· == '/')).length = n at hrep
  rw [hrep] at hsplit
  have hp := congrArg List.reverse hsplit
  rw [List.reverse_append, List.reverse_replicate, List.reverse_reverse] at hp
  refine ⟨n, ?_⟩
  rw [← String.toList_inj, withoutEndSlashes, String.toList_append, String.toList_ofList,
    String.toList_ofList, hp]

/-- What the end slashes of a path add to its steps is staying. -/
theorem exists_steps_withoutEndSlashes {p : Path} (h : withoutEndSlashes p ≠ "") :
    isAbsolute (withoutEndSlashes p) = isAbsolute p ∧
      ∃ stays, steps p = steps (withoutEndSlashes p) ++ stays ∧ ∀ s ∈ stays, s = .stay := by
  obtain ⟨n, hn⟩ := exists_withoutEndSlashes p
  generalize withoutEndSlashes p = q at h hn
  subst hn
  refine ⟨(isAbsolute_append h _).symm, ?_⟩
  -- the first of the slashes ends the path before it, and the others add empty pieces
  cases n with
  | zero => exact ⟨[], by simp, by simp⟩
  | succ n =>
    have hcons : q ++ String.ofList (List.replicate (n + 1) '/') =
        q ++ "/" ++ String.ofList (List.replicate n '/') := by
      rw [← String.toList_inj]; simp [List.replicate_succ]
    refine ⟨(pieces (String.ofList (List.replicate n '/'))).map stepOf, ?_, ?_⟩
    · rw [hcons, steps, pieces_append_slash, List.map_append, steps]
    · intro s hs
      obtain ⟨piece, hpiece, rfl⟩ := List.mem_map.1 hs
      rw [eq_empty_of_mem_pieces_slashes hpiece]
      rfl

/-- The pieces that are dropped at the end of a path ask for staying. -/
theorem exists_dropStays (l : List String) :
    ∃ stays, l = stays ++ dropStays l ∧ ∀ piece ∈ stays, stepOf piece = .stay := by
  fun_induction dropStays l with
  | case1 | case2 | case4 => exact ⟨[], rfl, by simp⟩
  | case3 piece earlier _ hstay ih =>
    obtain ⟨stays, hsplit, hstays⟩ := ih
    refine ⟨piece :: stays, ?_, ?_⟩
    · rw [List.cons_append, ← hsplit]
    · simpa using ⟨hstay, hstays⟩

theorem dropStays_ne_nil {l : List String} (h : l ≠ []) : dropStays l ≠ [] := by
  fun_induction dropStays l with
  | case1 => exact absurd rfl h
  | case2 | case4 => simp
  | case3 piece earlier hne _ ih => exact ih hne

/-- What the first pieces of a path make up begins where the path does; it is the root, or has these
pieces. -/
theorem ofPieces_of_pieces {p : Path} {kept cut : List String} (hp : p ≠ "") (hkept : kept ≠ [])
    (hpieces : pieces p = kept ++ cut) : isAbsolute (ofPieces kept.reverse) = isAbsolute p ∧
      (kept = [""] ∧ ofPieces kept.reverse = "/" ∨ pieces (ofPieces kept.reverse) = kept) := by
  -- an empty first piece alone is written as a slash, which has another piece
  by_cases hroot : kept = [""]
  · subst hroot
    have habs : isAbsolute p = true := by
      refine isAbsolute_iff.2 ⟨cut, ?_, hpieces⟩
      rintro rfl
      have hempty := intercalate_pieces p
      rw [hpieces] at hempty
      exact hp hempty.symm
    rw [habs]
    exact ⟨rfl, .inl ⟨rfl, rfl⟩⟩
  · have hof : ofPieces kept.reverse = String.intercalate "/" kept := by
      rw [ofPieces, if_neg, List.reverse_reverse]
      intro h
      exact hroot (by simpa using h)
    have hpart : pieces (String.intercalate "/" kept) = kept := by
      refine pieces_intercalate hkept fun piece hpiece => ?_
      exact slash_notMem_of_mem_pieces (p := p) (by rw [hpieces]; simp [hpiece])
    rw [hof]
    refine ⟨?_, .inr hpart⟩
    obtain ⟨first, rest, rfl⟩ := List.exists_cons_of_ne_nil hkept
    rw [Bool.eq_iff_iff, isAbsolute_iff, isAbsolute_iff, hpart, hpieces]
    constructor
    · rintro ⟨tail, htail, heq⟩
      obtain ⟨rfl, rfl⟩ := List.cons.inj heq
      exact ⟨rest ++ cut, by simp [htail], rfl⟩
    · rintro ⟨tail, -, heq⟩
      obtain ⟨rfl, -⟩ := List.cons.inj heq
      refine ⟨rest, ?_, rfl⟩
      rintro rfl
      exact hroot rfl

/-! ### The steps up to the last one that moves -/

/-- Steps up to the last one that does not stay. -/
def trim (steps : List Step) : List Step := steps.rdropWhile (· == .stay)

/-- The steps of a path up to the last one that does not stay. -/
def course (p : Path) : List Step := trim (steps p)

/-- A step that moves is kept, and so is what is before it. -/
theorem trim_concat {s : Step} (h : s ≠ .stay) (front : List Step) :
    trim (front ++ [s]) = front ++ [s] :=
  List.rdropWhile_concat_neg _ _ _ (by simpa using h)

/-- Steps at the end that stay do not count. -/
theorem trim_append_stays (front : List Step) {stays : List Step} (h : ∀ s ∈ stays, s = .stay) :
    trim (front ++ stays) = trim front := by
  induction stays using List.reverseRecOn with
  | nil => rw [List.append_nil]
  | append_singleton stays s ih =>
    obtain rfl : s = .stay := h s (by simp)
    rw [← List.append_assoc, trim, List.rdropWhile_concat_pos _ _ _ (by simp), ← trim]
    exact ih fun s hs => h s (by simp [hs])

theorem trim_of_stays {stays : List Step} (h : ∀ s ∈ stays, s = .stay) : trim stays = [] :=
  trim_append_stays [] h

theorem length_trim_le (steps : List Step) : (trim steps).length ≤ steps.length :=
  (List.rdropWhile_prefix _ _).length_le

/-- What is cut off stays. -/
theorem exists_trim (steps : List Step) :
    ∃ stays, steps = trim steps ++ stays ∧ ∀ s ∈ stays, s = .stay := by
  refine ⟨steps.rtakeWhile (· == .stay), (List.rdropWhile_append_rtakeWhile ..).symm,
    fun s hs => ?_⟩
  simpa using List.mem_rtakeWhile_imp hs

/-- Where more pieces than one are left, the last one of them moves. -/
theorem stepOf_ne_stay_of_dropStays {l earlier : List String} {last : String}
    (h : dropStays l = last :: earlier) (hmore : earlier ≠ []) : stepOf last ≠ .stay := by
  fun_induction dropStays l with
  | case1 => exact absurd h (by simp)
  | case2 first =>
    obtain ⟨rfl, rfl⟩ := List.cons.inj h
    exact absurd rfl hmore
  | case3 piece earlier' _ _ ih => exact ih h
  | case4 piece earlier' _ hmoves =>
    obtain ⟨rfl, rfl⟩ := List.cons.inj h
    exact hmoves

/-- What is left when the pieces that stay are dropped moves at its end, or is a single piece. -/
theorem trim_dropStays (l : List String) :
    trim ((dropStays l).reverse.map stepOf) = [] ∨
      trim ((dropStays l).reverse.map stepOf) = (dropStays l).reverse.map stepOf := by
  cases hl : dropStays l with
  | nil => exact .inr rfl
  | cons last earlier =>
    rw [List.reverse_cons, List.map_append, List.map_singleton]
    by_cases hmoves : stepOf last = .stay
    · obtain rfl : earlier = [] := by
        by_contra hmore
        exact stepOf_ne_stay_of_dropStays hl hmore hmoves
      exact .inl (trim_of_stays (by simpa using hmoves))
    · exact .inr (trim_concat hmoves _)

/-- A path of one step has nothing but its beginning before it. Of another one the pieces before its
last step are kept, as far as they do not stay at the end, and these make up what leads to it. -/
theorem parent?_cases {p q : Path} (h : parent? p = some q) :
    (q = "" ∧ isAbsolute p = false ∧ (course p).length ≤ 1) ∨
      ∃ earlier cut last, cut ≠ [] ∧ pieces p = (dropStays earlier).reverse ++ cut ∧
        isAbsolute q = isAbsolute p ∧
        ((dropStays earlier).reverse = [""] ∧ q = "/" ∨ pieces q = (dropStays earlier).reverse) ∧
        course p = earlier.reverse.map stepOf ++ [last] := by
  obtain ⟨stays, hsplit, hstays⟩ := exists_dropStays (pieces p).reverse
  have hcut : ∀ s ∈ stays.reverse.map stepOf, s = .stay := by simpa using hstays
  rw [parent?] at h
  split at h
  · exact absurd h (by simp)
  · rename_i only honly
    split at h
    · exact absurd h (by simp)
    · rename_i hne
      obtain rfl : "" = q := by simpa using h
      have hp : pieces p = only :: stays.reverse := by
        rw [← List.reverse_inj, hsplit, honly]; simp
      have hrel : isAbsolute p = false := by
        rw [← Bool.not_eq_true, isAbsolute_iff]
        rintro ⟨rest, -, hrest⟩
        rw [hp] at hrest
        exact hne (List.cons.inj hrest).1
      have hcourse : course p = trim [stepOf only] := by
        rw [course, steps, hp, List.map_cons, ← List.singleton_append, trim_append_stays _ hcut]
      refine .inl ⟨rfl, hrel, ?_⟩
      rw [hcourse]
      exact length_trim_le _
  · rename_i last earlier hmore honly
    obtain rfl : ofPieces (dropStays earlier) = q := by simpa using h
    have hne : earlier ≠ [] := fun h => hmore h
    have hp : pieces p = earlier.reverse ++ last :: stays.reverse := by
      rw [← List.reverse_inj, hsplit, honly]; simp
    have hcourse : course p = earlier.reverse.map stepOf ++ [stepOf last] := by
      rw [course, steps, hp, List.map_append, List.map_cons, ← List.singleton_append,
        ← List.append_assoc, trim_append_stays _ hcut,
        trim_concat (stepOf_ne_stay_of_dropStays honly hne)]
    obtain ⟨back, hback, -⟩ := exists_dropStays earlier
    have hpart : pieces p = (dropStays earlier).reverse ++
        (back.reverse ++ last :: stays.reverse) := by
      rw [hp, ← List.append_assoc, ← List.reverse_append, ← hback]
    have hkept : (dropStays earlier).reverse ≠ [] := by simpa using dropStays_ne_nil hne
    have hpne : p ≠ "" := by
      rintro rfl
      have hlen := congrArg List.length hp
      have hpos := List.length_pos_iff.2 hne
      have hone : (pieces "").length = 1 := by decide
      rw [List.length_append, List.length_reverse, List.length_cons] at hlen
      omega
    obtain ⟨habs, hq⟩ := ofPieces_of_pieces hpne hkept hpart
    rw [List.reverse_reverse] at habs hq
    exact .inr ⟨earlier, _, _, by simp, hpart, habs, hq, hcourse⟩

/-- What leads to a path begins where the path begins, and leaves out its last step that moves. -/
theorem course_parent? {p q : Path} (h : parent? p = some q) :
    isAbsolute q = isAbsolute p ∧ course q = trim (course p).dropLast := by
  rcases parent?_cases h with ⟨rfl, hrel, hshort⟩ | ⟨earlier, -, last, -, -, habs, hq, hcourse⟩
  · have hnil : (course p).dropLast = [] := by
      rw [← List.length_eq_zero_iff, List.length_dropLast]
      omega
    rw [hrel, hnil]
    exact ⟨rfl, by decide⟩
  · refine ⟨habs, ?_⟩
    -- the pieces between what leads to the path and its last step stay, and count for neither
    obtain ⟨back, hback, hbacks⟩ := exists_dropStays earlier
    have hmoves : trim (earlier.reverse.map stepOf) =
        trim ((dropStays earlier).reverse.map stepOf) := by
      have hpieces : earlier.reverse = (dropStays earlier).reverse ++ back.reverse := by
        rw [← List.reverse_append, ← hback]
      rw [hpieces, List.map_append, trim_append_stays _ (by simpa using hbacks)]
    rw [hcourse, List.dropLast_concat, hmoves]
    rcases hq with ⟨hroot, rfl⟩ | hsame
    · rw [hroot]
      decide
    · rw [course, steps, hsame]

/-- What leads to a path ends in a step that moves, or has none. -/
theorem course_of_parent? {p q : Path} (h : parent? p = some q) :
    course q = [] ∨ course q = steps q := by
  rcases parent?_cases h with ⟨rfl, -, -⟩ | ⟨earlier, -, -, -, -, -, ⟨-, rfl⟩ | hsame, -⟩
  · exact .inl (by decide)
  · exact .inl (by decide)
  · rw [course, steps, hsame]
    exact trim_dropStays earlier

/-- A path begins with what leads to it. -/
theorem exists_eq_parent?_append {p q : Path} (h : parent? p = some q) :
    ∃ rest : String, p = q ++ rest := by
  rcases parent?_cases h with
    ⟨rfl, -, -⟩ | ⟨earlier, cut, -, hcut, hpieces, habs, ⟨-, rfl⟩ | hsame, -⟩
  · exact ⟨p, by simp⟩
  · obtain ⟨text, htext⟩ := List.head?_eq_some_iff.1 (eq_of_beq (habs.symm.trans (by decide)))
    exact ⟨String.ofList text, by rw [← String.toList_inj, htext]; simp⟩
  · refine ⟨"/" ++ String.intercalate "/" cut, ?_⟩
    have hnone : ∀ piece ∈ cut, '/' ∉ piece.toList := fun piece hpiece =>
      slash_notMem_of_mem_pieces (p := p) (by rw [hpieces]; simp [hpiece])
    have heq : pieces p = pieces (q ++ "/" ++ String.intercalate "/" cut) := by
      rw [pieces_append_slash, pieces_intercalate hcut hnone, hpieces, hsame]
    rw [← String.append_assoc, ← intercalate_pieces p, heq, intercalate_pieces]

/-- A path takes no more steps than it has pieces. -/
theorem length_course_le (p : Path) : (course p).length ≤ (pieces p).length := by
  have hsteps : (steps p).length = (pieces p).length := List.length_map ..
  rw [← hsteps]
  exact length_trim_le _

/-- What leads to a path takes fewer steps, unless the path takes none. -/
theorem length_course_parent?_lt {p q : Path} (h : parent? p = some q) (hp : course p ≠ []) :
    (course q).length < (course p).length := by
  have hpos := List.length_pos_iff.2 hp
  have hle := length_trim_le (course p).dropLast
  rw [List.length_dropLast] at hle
  rw [(course_parent? h).2]
  omega

/-- Nothing leads to the root. -/
theorem steps_of_parent?_eq_none {p : Path} (hp : p ≠ "") (h : parent? p = none) :
    isAbsolute p = true ∧ ∀ s ∈ steps p, s = .stay := by
  rw [parent?] at h
  split at h
  · rename_i hnil
    have hne : (pieces p).reverse ≠ [] := by simpa using pieces_ne_nil p
    exact absurd hnil (dropStays_ne_nil hne)
  · rename_i only honly
    -- of the pieces nothing is left but the one before the first slash
    obtain rfl : only = "" := by
      by_contra hne
      simp [hne] at h
    obtain ⟨front, hfront, hstays⟩ := exists_dropStays (pieces p).reverse
    have hpieces : pieces p = "" :: front.reverse := by
      rw [← List.reverse_inj, hfront, honly]; simp
    constructor
    · refine isAbsolute_iff.2 ⟨front.reverse, ?_, hpieces⟩
      intro hnil
      have hempty := intercalate_pieces p
      rw [hpieces, hnil] at hempty
      exact hp hempty.symm
    · intro s hs
      rw [steps, hpieces, List.map_cons, List.mem_cons] at hs
      rcases hs with rfl | hs
      · rfl
      · obtain ⟨piece, hpiece, rfl⟩ := List.mem_map.1 hs
        exact hstays piece (by simpa using hpiece)
  · exact absurd h (by simp)

/-! ### Without what stays at the end -/

/-- A path without the pieces at its end that ask for staying. -/
def withoutEndStays (p : Path) : Path := ofPieces (dropStays (pieces p).reverse)

/-- A name keeps what stands before it from being dropped. -/
theorem dropStays_cons {x : String} (hx : IsName x) (l : List String) :
    dropStays (x :: l) = x :: l := by
  cases l with
  | nil => rfl
  | cons y l => simp [dropStays, hx.stepOf_eq]

/-- What leads to a name behind a directory is the directory, without what stays at its end. -/
theorem parent?_join {dir : Path} {x : String} (hdir : dir ≠ "") (hx : IsName x) :
    parent? (dir.join x) = some (withoutEndStays dir) := by
  obtain ⟨front, hfront, hjoin, hsame⟩ := exists_pieces_join hdir hx
  obtain ⟨last, earlier, hrev⟩ := List.exists_cons_of_ne_nil (l := front.reverse) (by simpa)
  have hkept : dropStays (pieces dir).reverse = dropStays front.reverse := by
    rcases hsame with h | h
    · rw [h]
    · rw [h, List.reverse_append, hrev]
      rfl
  rw [parent?, hjoin, List.reverse_concat, dropStays_cons hx, withoutEndStays, hkept, hrev]

/-- The directory of a name behind another name is that one. -/
theorem parent?_join_join {dir : Path} {name x : String} (hdir : dir ≠ "") (hname : IsName name)
    (hx : IsName x) : parent? ((dir.join name).join x) = some (dir.join name) := by
  obtain ⟨front, hfront, hjoin, -⟩ := exists_pieces_join hdir hname
  rw [parent?_join (join_ne_empty dir hname) hx, withoutEndStays, hjoin, List.reverse_concat,
    dropStays_cons hname, ofPieces, if_neg (by simpa using fun _ => hfront),
    ← List.reverse_concat, List.reverse_reverse, ← hjoin, intercalate_pieces]

/-! ## Texts grow when names are put behind them -/

/-- A path has the bytes of the directory and those of what is put behind it. -/
theorem utf8ByteSize_add_le_join {dir x : Path} (hx : isAbsolute x = false) :
    dir.utf8ByteSize + x.utf8ByteSize ≤ (dir.join x).utf8ByteSize := by
  rw [join_eq hx, String.utf8ByteSize_append, String.utf8ByteSize_append]
  omega

/-- A directory has no longer text than what is put behind it. -/
theorem utf8ByteSize_le_join {dir x : Path} (hx : isAbsolute x = false) :
    dir.utf8ByteSize ≤ (dir.join x).utf8ByteSize :=
  Nat.le_of_add_right_le (utf8ByteSize_add_le_join hx)

/-- But for slashes, a path has the characters of the directory and those of what is put behind it.
-/
theorem mem_join_iff {dir x : Path} (hx : isAbsolute x = false) {c : Char} (hc : c ≠ '/') :
    c ∈ (dir.join x).toList ↔ c ∈ dir.toList ∨ c ∈ x.toList := by
  have hgap : c ∉ (gap dir).toList := by
    rw [gap]
    split <;> simp [hc]
  rw [join_eq hx]
  simp only [String.toList_append, List.mem_append]
  rw [or_iff_left hgap]

/-- A name further down makes a longer path than the same name further up. -/
theorem utf8ByteSize_join_le {dir x name : Path} (hx : isAbsolute x = false)
    (hname : IsName name) : (dir.join x).utf8ByteSize ≤ ((dir.join name).join x).utf8ByteSize := by
  rw [join_eq hx, join_eq hx, join_eq hname.not_isAbsolute]
  simp only [String.utf8ByteSize_append]
  omega

end FlatWeights.Path
