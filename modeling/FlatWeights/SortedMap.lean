/-!
Maps from names, kept in increasing order of the names. Names are compared character by character,
which is also the order of their encodings as bytes. Two maps that give every name the same value
have the same entries in the same order, so an enumeration shows nothing of the way in which a map
was built. Main statements: what `find?` sees of an insertion, and that `keys` is increasing.
-/

set_option autoImplicit false

namespace FlatWeights

/-- Entries in increasing order of their names, one entry for each name. -/
structure SortedMap (α : Type) where
  entries : List (String × α)
  sorted : (entries.map (·.1)).Pairwise (· < ·)
deriving Repr

namespace SortedMap

variable {α : Type}

/-- Entries with one more, which replaces an entry of the same name. -/
def insertEntry (k : String) (v : α) : List (String × α) → List (String × α)
  | [] => [(k, v)]
  | (k', v') :: rest =>
    if k < k' then (k, v) :: (k', v') :: rest
    else if k = k' then (k, v) :: rest
    else (k', v') :: insertEntry k v rest

/-- An entry adds its key. -/
theorem mem_keys_insertEntry {k x : String} {v : α} {l : List (String × α)} :
    x ∈ (insertEntry k v l).map (·.1) ↔ x = k ∨ x ∈ l.map (·.1) := by
  fun_induction insertEntry k v l with
  | case1 => simp
  | case2 => simp
  | case3 => simp
  | case4 k' v' rest hlt hne ih =>
    simp only [List.map_cons, List.mem_cons, ih]
    exact or_left_comm

/-- The keys stay in order. -/
theorem sorted_insertEntry (k : String) (v : α) {l : List (String × α)}
    (h : (l.map (·.1)).Pairwise (· < ·)) :
    ((insertEntry k v l).map (·.1)).Pairwise (· < ·) := by
  fun_induction insertEntry k v l with
  | case1 => simp
  | case2 k' v' rest hlt =>
    simp only [List.map_cons, List.pairwise_cons] at h ⊢
    refine ⟨fun x hx => ?_, h⟩
    rcases List.mem_cons.1 hx with rfl | hx
    · exact hlt
    · exact String.lt_trans hlt (h.1 x hx)
  | case3 v' rest hlt => simpa using h
  | case4 k' v' rest hlt hne ih =>
    simp only [List.map_cons, List.pairwise_cons] at h ⊢
    refine ⟨fun x hx => ?_, ih h.2⟩
    rcases mem_keys_insertEntry.1 hx with rfl | hx
    · exact Std.lt_of_le_of_ne (String.not_lt.1 hlt) (Ne.symm hne)
    · exact h.1 x hx

/-- The map without entries. -/
def empty : SortedMap α := ⟨[], by simp⟩

instance : Inhabited (SortedMap α) := ⟨empty⟩

/-- The map with a value given to a name. -/
def insert (m : SortedMap α) (k : String) (v : α) : SortedMap α :=
  ⟨insertEntry k v m.entries, sorted_insertEntry k v m.sorted⟩

/-- The map that a list of entries gives; a later entry replaces an earlier one of its name. -/
def ofList (l : List (String × α)) : SortedMap α := l.foldl (fun m e => m.insert e.1 e.2) empty

/-- The value of a name, if it has one. -/
def find? (m : SortedMap α) (k : String) : Option α := m.entries.lookup k

/-- A name has a value. -/
def contains (m : SortedMap α) (k : String) : Bool := (m.find? k).isSome

/-- The names that have a value, in increasing order. -/
def keys (m : SortedMap α) : List String := m.entries.map (·.1)

/-- The number of names that have a value. -/
def size (m : SortedMap α) : Nat := m.entries.length

/-! ## What the operations do to the view -/

/-- A map is the list of its entries. -/
theorem ext_entries {m n : SortedMap α} (h : m.entries = n.entries) : m = n := by
  cases m; cases n; simp_all

instance [DecidableEq α] : DecidableEq (SortedMap α) := fun m n =>
  if h : m.entries = n.entries then isTrue (ext_entries h) else isFalse fun e => h (e ▸ rfl)

/-- An entry changes what is found under its key. -/
theorem lookup_insertEntry (k x : String) (v : α) (l : List (String × α)) :
    (insertEntry k v l).lookup x = if x = k then some v else l.lookup x := by
  fun_induction insertEntry k v l <;> simp_all [List.lookup_cons] <;> grind

/-- An insertion changes the value of its own name and of no other. -/
theorem find?_insert (m : SortedMap α) (k x : String) (v : α) :
    (m.insert k v).find? x = if x = k then some v else m.find? x :=
  lookup_insertEntry k x v m.entries

/-- An insertion adds its own name and no other. -/
theorem mem_keys_insert {m : SortedMap α} {k x : String} {v : α} :
    x ∈ (m.insert k v).keys ↔ x = k ∨ x ∈ m.keys :=
  mem_keys_insertEntry

theorem keys_pairwise (m : SortedMap α) : m.keys.Pairwise (· < ·) := m.sorted

/-- A name after all others is inserted at the end. -/
theorem insertEntry_last {k : String} {v : α} {l : List (String × α)}
    (h : ∀ x ∈ l.map (·.1), x < k) : insertEntry k v l = l ++ [(k, v)] := by
  fun_induction insertEntry k v l with
  | case1 => rfl
  | case2 k' v' rest hlt => exact absurd hlt (String.lt_asymm (h k' (by simp)))
  | case3 v' rest => exact absurd (h k (by simp)) (String.lt_irrefl k)
  | case4 k' v' rest _ _ ih =>
    rw [ih fun x hx => h x (List.mem_cons_of_mem _ hx), List.cons_append]

/-- A map is made of its entries. -/
theorem ofList_entries (m : SortedMap α) : ofList m.entries = m := by
  have hfold : ∀ (later : List (String × α)) (front : SortedMap α),
      (front.entries ++ later).Pairwise (fun a b => a.1 < b.1) →
      (later.foldl (fun m e => m.insert e.1 e.2) front).entries = front.entries ++ later := by
    intro later
    induction later with
    | nil => simp
    | cons e later ih =>
      intro front hsorted
      have hinsert : (front.insert e.1 e.2).entries = front.entries ++ [e] := by
        refine insertEntry_last fun x hx => ?_
        obtain ⟨a, ha, rfl⟩ := List.mem_map.1 hx
        exact (List.pairwise_append.1 hsorted).2.2 a ha e (by simp)
      rw [List.foldl_cons, ih _ (by simpa [hinsert] using hsorted), hinsert]
      simp
  exact ext_entries (hfold m.entries .empty (List.pairwise_map.1 m.sorted))

end SortedMap

/-- A set of names, in increasing order. -/
abbrev NameSet := SortedMap Unit

namespace NameSet

/-- The set with one more name. -/
def add (s : NameSet) (name : String) : NameSet := s.insert name ()

/-- The set of the names in a list. -/
def ofNames (names : List String) : NameSet := names.foldl add .empty

/-- The names of the set, in increasing order. -/
def toList (s : NameSet) : List String := s.keys

/-! ## Members -/

theorem toList_empty : toList .empty = [] := rfl

/-- A name is added to those that are there. -/
theorem mem_toList_add {s : NameSet} {name x : String} :
    x ∈ (s.add name).toList ↔ x = name ∨ x ∈ s.toList :=
  SortedMap.mem_keys_insert

/-- The names of a list are exactly the members of their set. -/
theorem mem_toList_ofNames {names : List String} {x : String} :
    x ∈ (ofNames names).toList ↔ x ∈ names := by
  have fold (s : NameSet) : x ∈ (names.foldl add s).toList ↔ x ∈ names ∨ x ∈ s.toList := by
    induction names generalizing s with
    | nil => simp
    | cons name rest ih =>
      simp only [List.foldl_cons, ih, mem_toList_add, List.mem_cons]
      constructor
      · rintro (h | h | h)
        · exact .inl (.inr h)
        · exact .inl (.inl h)
        · exact .inr h
      · rintro ((h | h) | h)
        · exact .inr (.inl h)
        · exact .inl h
        · exact .inr (.inr h)
  simpa [toList_empty, ofNames] using fold .empty

/-- Each name is listed once. -/
theorem nodup_toList (s : NameSet) : s.toList.Nodup :=
  s.keys_pairwise.imp fun {a b} (h : a < b) heq => by
    subst heq
    exact String.lt_irrefl a h

end NameSet

end FlatWeights
