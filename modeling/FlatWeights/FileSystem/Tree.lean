import FlatWeights.Bytes
import FlatWeights.SortedMap

/-!
File trees as values. A location is the list of the names that lead to it, the deepest name first,
so that the directory of a location is its tail. A tree gives an entry to each location that is
taken; the root is always a directory, and whatever has an entry lies in a directory. `find?` is the
view by which trees are compared, and each operation has a lemma that says what it does to the view.
-/

set_option autoImplicit false

namespace FlatWeights

/-- The names that lead from the root to a place, deepest first. -/
abbrev Location := List String

/-- What is at a location. -/
inductive Entry where
  | file (content : Bytes)
  | directory
deriving DecidableEq, Repr

/-- A file, or a directory with what is in it. -/
inductive Node where
  | file (content : Bytes)
  | directory (members : List (String × Node))
deriving Repr

namespace Node

/-- What a node is, apart from what is in it. -/
def entry : Node → Entry
  | file content => .file content
  | directory _ => .directory

/-- A node for an entry, with nothing in it. -/
def ofEntry : Entry → Node
  | .file content => file content
  | .directory => directory []

/-- The members of a directory with a member of a name put in, or with none of that name. -/
def putMember (name : String) (node : Option Node) (members : List (String × Node)) :
    List (String × Node) :=
  let others := members.filter (·.1 ≠ name)
  match node with
  | some n => (name, n) :: others
  | none => others

/-- The node to which names lead, the first of them being a member of the node that is given. -/
def follow : List String → Option Node → Option Node
  | [], node => node
  | name :: rest, some (directory members) => follow rest (members.lookup name)
  | _ :: _, _ => none

/-- A node with another one put in the place to which names lead. Nothing changes where there is no
directory for it. -/
def graft (names : List String) (new : Option Node) (node : Option Node) : Option Node :=
  match names with
  | [] => new
  | name :: rest =>
    match node with
    | some (directory members) =>
      some (directory (putMember name (graft rest new (members.lookup name)) members))
    | other => other

mutual

/-- What is below a node that stands at a location, with the locations. -/
def listing (above : Location) : Node → List (Location × Entry)
  | file _ => []
  | directory members => memberListing above members

/-- The members of a directory that stands at a location, and what is below them. -/
def memberListing (above : Location) : List (String × Node) → List (Location × Entry)
  | [] => []
  | (name, node) :: rest =>
    (name :: above, node.entry) :: (node.listing (name :: above) ++ memberListing above rest)

end

end Node

/-- A file tree, given by the members of its root directory. -/
structure FileTree where
  members : List (String × Node)
deriving Repr

namespace FileTree

/-- The tree that has nothing below its root. -/
def empty : FileTree := ⟨[]⟩

/-- The root directory. -/
def root (t : FileTree) : Node := .directory t.members

/-- The node at a location, if anything is there. -/
def node? (t : FileTree) (l : Location) : Option Node := Node.follow l.reverse (some t.root)

/-- What is at a location, if anything is. -/
def find? (t : FileTree) (l : Location) : Option Entry := (t.node? l).map Node.entry

/-- The tree with a node at a location, or with nothing there, in place of what was there. -/
def put (t : FileTree) (l : Location) (node : Option Node) : FileTree :=
  match Node.graft l.reverse node (some t.root) with
  | some (.directory members) => ⟨members⟩
  | _ => t

/-- The tree with an entry put at a location, in place of what was there. -/
def insert (t : FileTree) (l : Location) (e : Entry) : FileTree := t.put l (some (.ofEntry e))

/-- The tree without a location and everything below it. -/
def erase (t : FileTree) (l : Location) : FileTree := t.put l none

/-- The tree without everything below a location. -/
def clear (t : FileTree) (l : Location) : FileTree :=
  if t.find? l = some .directory then t.insert l .directory else t

/-- A location at or below `source`, seen from `target` instead. -/
def relocate (source target l : Location) : Location :=
  if source <:+ l then l.take (l.length - source.length) ++ target else l

/-- The tree with `source` and everything below it moved to `target`, in place of what is there. -/
def move (t : FileTree) (source target : Location) : FileTree :=
  (t.erase source).put target (t.node? source)

/-- The names of the entries of a directory, in increasing order. -/
def names (t : FileTree) (l : Location) : List String :=
  match t.node? l with
  | some (.directory members) => (NameSet.ofNames (members.map (·.1))).toList
  | _ => []

/-- What is below a location, with locations as seen from there. -/
def below (t : FileTree) (l : Location) : List (Location × Entry) :=
  match t.node? l with
  | some node => node.listing []
  | none => []

/-- Two trees hold the same at every location. -/
def Same (t u : FileTree) : Prop := ∀ l, t.find? l = u.find? l

end FileTree

/-! ## Following names -/

namespace Node

/-- A place that may hold something is a directory. -/
def IsDirectory (node : Option Node) : Prop := node.map entry = some .directory

theorem isDirectory_iff {node : Option Node} :
    IsDirectory node ↔ ∃ members, node = some (directory members) := by
  constructor
  · intro h
    match node, h with
    | some (directory members), _ => exact ⟨members, rfl⟩
  · rintro ⟨members, rfl⟩; rfl

/-- A path of two parts is followed part by part. -/
theorem follow_append (p q : List String) (node : Option Node) :
    follow (p ++ q) node = follow q (follow p node) := by
  induction p generalizing node with
  | nil => rfl
  | cons name p ih =>
    match node with
    | some (directory members) => exact ih _
    | some (file _) | none => cases q <;> rfl

theorem follow_none (p : List String) : follow p none = none := by cases p <;> rfl

/-- What has a member is a directory. -/
theorem isDirectory_of_follow {name : String} {rest : List String} {node : Option Node}
    (h : (follow (name :: rest) node).isSome) : IsDirectory node := by
  match node, h with
  | some (directory _), _ => rfl

theorem lookup_filter_ne (name : String) (members : List (String × Node)) (x : String) :
    (members.filter (·.1 ≠ name)).lookup x = if x = name then none else members.lookup x := by
  induction members with
  | nil => simp
  | cons m members ih =>
    obtain ⟨k, v⟩ := m
    by_cases hk : k = name
    · subst hk
      rw [List.filter_cons_of_neg (by simp), ih]
      by_cases hx : x = k
      · simp [hx]
      · simp [hx, List.lookup_cons, beq_eq_false_iff_ne.2 hx]
    · rw [List.filter_cons_of_pos (by simpa using hk), List.lookup_cons, List.lookup_cons, ih]
      by_cases hx : x = k
      · subst hx; simp [hk]
      · simp [beq_eq_false_iff_ne.2 hx]

/-- Putting a member changes what is under its name. -/
theorem lookup_putMember (name : String) (node : Option Node) (members : List (String × Node))
    (x : String) :
    (putMember name node members).lookup x = if x = name then node else members.lookup x := by
  cases node with
  | none => exact lookup_filter_ne name members x
  | some n =>
    simp only [putMember, List.lookup_cons]
    by_cases hx : x = name
    · simp [hx]
    · simp only [beq_eq_false_iff_ne.2 hx, if_neg hx, lookup_filter_ne]

/-- Below the place where a node was put stands what the node holds. -/
theorem follow_graft_append (p q : List String) (new node : Option Node)
    (h : p ≠ [] → IsDirectory (follow p.dropLast node)) :
    follow (p ++ q) (graft p new node) = follow q new := by
  induction p generalizing node with
  | nil => rfl
  | cons name p ih =>
    have hd : IsDirectory node := by
      cases p with
      | nil => exact h (by simp)
      | cons second p =>
        obtain ⟨members, hm⟩ := isDirectory_iff.1 (h (by simp))
        rw [List.dropLast_cons_cons] at hm
        exact isDirectory_of_follow (by rw [hm]; rfl)
    obtain ⟨members, rfl⟩ := isDirectory_iff.1 hd
    simp only [graft, List.cons_append, follow, lookup_putMember, if_pos]
    refine ih _ fun hp => ?_
    have h' := h (by simp)
    rwa [List.dropLast_cons_of_ne_nil hp, follow] at h'

/-- Where nothing was put there is nothing. -/
theorem follow_graft_none (p q : List String) (node : Option Node) :
    follow (p ++ q) (graft p none node) = none := by
  induction p generalizing node with
  | nil => cases q <;> rfl
  | cons name p ih =>
    match node with
    | some (directory members) =>
      simp only [graft, List.cons_append, follow, lookup_putMember, if_pos]
      exact ih _
    | some (file _) | none => rfl

/-- A place that does not lie below the one where a node was put has the entry it had. -/
theorem entry_follow_graft {p q : List String} (new node : Option Node) (h : ¬ p <+: q) :
    (follow q (graft p new node)).map entry = (follow q node).map entry := by
  induction p generalizing q node with
  | nil => exact absurd (List.nil_prefix) h
  | cons name p ih =>
    match node with
    | some (file _) | none => rfl
    | some (directory members) =>
      cases q with
      | nil => rfl
      | cons x q =>
        simp only [graft, follow, lookup_putMember]
        by_cases hx : x = name
        · subst hx
          rw [if_pos rfl]
          exact ih _ fun hp => h (List.cons_prefix_cons.2 ⟨rfl, hp⟩)
        · rw [if_neg hx]

theorem lookup_isSome_iff {members : List (String × Node)} {name : String} :
    (members.lookup name).isSome ↔ name ∈ members.map (·.1) := by
  induction members with
  | nil => simp
  | cons m members ih =>
    obtain ⟨k, v⟩ := m
    by_cases h : name = k
    · simp [h]
    · simp only [List.lookup_cons, beq_eq_false_iff_ne.2 h, ih, List.map_cons, List.mem_cons, h,
        false_or]

end Node

/-! ## What the operations do to the view -/

namespace FileTree

open Node

/-- The node at a place is found from any place above it. -/
theorem node?_append (t : FileTree) (front l : Location) :
    t.node? (front ++ l) = follow front.reverse (t.node? l) := by
  rw [node?, List.reverse_append, follow_append, ← node?]

theorem find?_root (t : FileTree) : t.find? [] = some .directory := rfl

/-- Whatever has an entry lies in a directory. -/
theorem find?_tail {t : FileTree} {name : String} {l : Location}
    (h : (t.find? (name :: l)).isSome) : t.find? l = some .directory := by
  have ha := t.node?_append [name] l
  rw [List.singleton_append] at ha
  rw [find?, ha, Option.isSome_map] at h
  exact isDirectory_of_follow h

/-- There is something below directories alone. -/
theorem find?_of_append {t : FileTree} {front l : Location} (hf : front ≠ [])
    (h : (t.find? (front ++ l)).isSome) : t.find? l = some .directory := by
  induction front with
  | nil => exact absurd rfl hf
  | cons name front ih =>
    have hd := find?_tail (by simpa using h)
    by_cases hn : front = []
    · simpa [hn] using hd
    · exact ih hn (by rw [hd]; rfl)

theorem some_root_put (t : FileTree) {l : Location} (hl : l ≠ []) (node : Option Node) :
    some (t.put l node).root = graft l.reverse node (some t.root) := by
  have hr : l.reverse ≠ [] := by simpa using hl
  rw [put]
  cases hp : l.reverse with
  | nil => exact absurd hp hr
  | cons name rest => rfl

theorem node?_put (t : FileTree) {l : Location} (hl : l ≠ []) (node : Option Node)
    (k : Location) :
    (t.put l node).node? k = follow k.reverse (graft l.reverse node (some t.root)) := by
  rw [node?, some_root_put t hl]

/-- At and below the place where a node was put there is what the node holds. -/
theorem node?_put_append (t : FileTree) {l : Location} (hl : l ≠ [])
    (hd : t.find? l.tail = some .directory) (node : Option Node) (front : Location) :
    (t.put l node).node? (front ++ l) = follow front.reverse node := by
  rw [node?_put t hl, List.reverse_append]
  refine follow_graft_append _ _ _ _ fun _ => ?_
  cases l with
  | nil => exact absurd rfl hl
  | cons name above => simpa [IsDirectory, find?, node?] using hd

/-- What does not lie below a place stays when something is put there. -/
theorem find?_put_of_not_suffix (t : FileTree) {l : Location} (hl : l ≠ []) (node : Option Node)
    {k : Location} (h : ¬ l <:+ k) : (t.put l node).find? k = t.find? k := by
  rw [find?, find?, node?_put t hl, node?]
  exact entry_follow_graft _ _ fun hp => h (List.reverse_prefix.1 hp)

/-- An insertion puts its entry at the location and leaves nothing below it; the rest is as
before. -/
theorem find?_insert (t : FileTree) {l : Location} (hl : l ≠ [])
    (hd : t.find? l.tail = some .directory) (e : Entry) (k : Location) :
    (t.insert l e).find? k = if k = l then some e else if l <:+ k then none else t.find? k := by
  by_cases h : l <:+ k
  · obtain ⟨front, rfl⟩ := h
    rw [find?, insert, node?_put_append t hl hd]
    by_cases hf : front = []
    · subst hf
      cases e <;> simp [follow, ofEntry, entry]
    · have hk : front ++ l ≠ l := fun hk => hf (by simpa using hk)
      rw [if_neg hk, if_pos (List.suffix_append _ _)]
      cases hr : front.reverse with
      | nil => exact absurd (by simpa using hr) hf
      | cons name rest => cases e <;> simp [follow, ofEntry, follow_none]
  · have hk : k ≠ l := fun hk => h (hk ▸ List.suffix_refl l)
    rw [if_neg hk, if_neg h, insert, find?_put_of_not_suffix t hl _ h]

/-- After erasing a location, it and everything below it are missing; the rest is as before. -/
theorem find?_erase (t : FileTree) {l : Location} (hl : l ≠ []) (k : Location) :
    (t.erase l).find? k = if l <:+ k then none else t.find? k := by
  by_cases h : l <:+ k
  · obtain ⟨front, rfl⟩ := h
    rw [if_pos (List.suffix_append _ _), find?, erase, node?_put t hl, List.reverse_append,
      follow_graft_none]
    rfl
  · rw [if_neg h, erase, find?_put_of_not_suffix t hl _ h]

/-- After clearing a directory, everything below it is missing; the rest is as before. -/
theorem find?_clear (t : FileTree) (l k : Location) :
    (t.clear l).find? k = if l <:+ k ∧ k ≠ l then none else t.find? k := by
  by_cases hd : t.find? l = some .directory
  · rw [clear, if_pos hd]
    by_cases hl : l = []
    · subst hl
      cases hk : k.reverse with
      | nil =>
        have hk : k = [] := by simpa using hk
        subst hk; rfl
      | cons name rest =>
        have hn : k ≠ [] := fun h => by simp [h] at hk
        rw [if_pos ⟨List.nil_suffix, hn⟩, find?, node?, hk]
        simp [insert, put, graft, root, ofEntry, follow, follow_none]
    · obtain ⟨name, above, rfl⟩ := List.exists_cons_of_ne_nil hl
      have hp : t.find? above = some .directory := find?_tail (by rw [hd]; rfl)
      rw [find?_insert t hl hp]
      by_cases hk : k = name :: above
      · subst hk; simp [hd]
      · simp [hk]
  · rw [clear, if_neg hd]
    split
    next h =>
      obtain ⟨⟨front, rfl⟩, hk⟩ := h
      cases hs : t.find? (front ++ l) with
      | none => rfl
      | some e =>
        have hf : front ≠ [] := fun hf => hk (by simp [hf])
        exact absurd (find?_of_append hf (by rw [hs]; rfl)) hd
    next => rfl

/-- What lies below the source lies below the target. -/
theorem relocate_append (source target front : Location) :
    relocate source target (front ++ source) = front ++ target := by
  simp [relocate, List.suffix_append]

/-- What does not stays where it is. -/
theorem relocate_of_not_suffix {source target l : Location} (h : ¬ source <:+ l) :
    relocate source target l = l := by
  simp [relocate, h]

/-- After a move, `target` and what is below it hold what `source` and what is below it held;
`source` is missing, and the rest is as before. The target may not lie in the source. -/
theorem find?_move (t : FileTree) {source target : Location} (hs : source ≠ []) (ht : target ≠ [])
    (hd : t.find? target.tail = some .directory) (hst : ¬ source <:+ target) (k : Location) :
    (t.move source target).find? k =
      if target <:+ k then t.find? (relocate target source k)
      else if source <:+ k then none
      else t.find? k := by
  by_cases hk : target <:+ k
  · obtain ⟨front, rfl⟩ := hk
    have hd' : (t.erase source).find? target.tail = some .directory := by
      rw [find?_erase t hs, if_neg, hd]
      exact fun h => hst (h.trans (List.tail_suffix target))
    rw [if_pos (List.suffix_append _ _), relocate_append, move, find?,
      node?_put_append _ ht hd', find?, node?_append]
  · rw [if_neg hk, move, find?_put_of_not_suffix _ ht _ hk, find?_erase t hs]

/-- The names in a directory are those under which there is an entry. -/
theorem mem_names (t : FileTree) (l : Location) (name : String) :
    name ∈ t.names l ↔ (t.find? (name :: l)).isSome := by
  have ha := t.node?_append [name] l
  rw [List.singleton_append] at ha
  rw [find?, ha, Option.isSome_map, names]
  match t.node? l with
  | some (.directory members) =>
    rw [NameSet.mem_toList_ofNames, ← lookup_isSome_iff]
    rfl
  | some (.file _) | none => simp [follow]

/-- Names are listed in order. -/
theorem pairwise_names (t : FileTree) (l : Location) : (t.names l).Pairwise (· < ·) := by
  rw [names]
  split
  · exact SortedMap.keys_pairwise _
  · exact .nil

theorem nodup_names (t : FileTree) (l : Location) : (t.names l).Nodup := by
  rw [names]
  split
  · exact NameSet.nodup_toList _
  · exact List.nodup_nil

end FileTree

end FlatWeights
