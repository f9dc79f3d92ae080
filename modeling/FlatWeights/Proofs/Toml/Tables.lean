import FlatWeights.Toml.Table

/-!
What headings and the lines under them make. A heading opens a table at the end of a document, and
the lines that follow fill it in their order; a document in the making is the table that its last
heading names and what stands around that table.
-/

set_option autoImplicit false

namespace FlatWeights.Toml

namespace Entries

theorem find?_append_of_none {front back : Entries} {key : String} (h : find? front key = none) :
    find? (front ++ back) key = find? back key := by
  rw [find?] at h
  rw [find?, find?, List.lookup_append, h, Option.none_or]

/-- A key that is not found is not among the keys. -/
theorem find?_eq_none_iff {entries : Entries} {key : String} :
    find? entries key = none ↔ key ∉ entries.map (·.1) := by
  rw [find?, List.lookup_eq_none_iff]
  simp only [List.mem_map, not_exists, not_and, bne_iff_ne, ne_eq]
  exact forall₂_congr fun e _ => not_congr eq_comm

theorem find?_singleton (key : String) (v : Value) : find? [(key, v)] key = some v := by
  simp [find?]

/-- The value of the last key is replaced. -/
theorem replace_last {front : Entries} {key : String} (h : find? front key = none) (v w : Value) :
    replace (front ++ [(key, v)]) key w = front ++ [(key, w)] := by
  rw [find?_eq_none_iff] at h
  have hfront : front.map (fun e => if e.1 = key then (key, w) else e) = front.map id := by
    refine List.map_congr_left fun e he => if_neg ?_
    rintro rfl
    exact h (List.mem_map_of_mem he)
  rw [replace, List.map_append, hfront, List.map_id]
  simp

end Entries

/-- The table that a heading names is the part of a document that `around` leaves open. -/
def Focus (name : List String) (around : Entries → Entries) : Prop :=
  ∀ (edit : TableKind → Entries → Option Entries) (entries : Entries),
    (around entries).editAt .heading edit name .headed = (edit .headed entries).map around

theorem focus_nil : Focus [] id := fun edit entries => by
  rw [Entries.editAt, id_eq, Option.map_id]
  rfl

/-- A longer path is followed in two parts. -/
theorem Entries.editAt_append (passage : Passage) (edit : TableKind → Entries → Option Entries)
    (front back : List String) (kind : TableKind) (entries : Entries) :
    entries.editAt passage edit (front ++ back) kind =
      entries.editAt passage (fun kind entries => entries.editAt passage edit back kind) front
        kind := by
  induction front generalizing kind entries with
  | nil => rfl
  | cons key front ih =>
    rw [List.cons_append, editAt.eq_def, editAt.eq_def passage _ (key :: front)]
    simp only [ih]

/-- The table at the end of the one that a heading names. -/
theorem Focus.last {name : List String} {around : Entries → Entries} (h : Focus name around)
    (front : Entries) (key : String) (hnew : front.find? key = none) :
    Focus (name ++ [key]) fun entries => around (front ++ [(key, .table .headed entries)]) := by
  intro edit entries
  have hfind : Entries.find? (front ++ [(key, .table .headed entries)]) key =
      some (.table .headed entries) := by
    rw [Entries.find?_append_of_none hnew, Entries.find?_singleton]
  -- the table is found by its key, so the edit replaces it and nothing else
  rw [Entries.editAt_append, h, Entries.editAt, hfind]
  simp only [Passage.mayPass, if_true, Entries.editAt]
  cases edit .headed entries with
  | none => rfl
  | some entries => exact congrArg (some ∘ around) (Entries.replace_last hnew _ _)

section Section

variable {name : List String} {around : Entries → Entries} (h : Focus name around)

include h

/-- A new key is put at the end of the table that is open. -/
theorem add_assign {entries : Entries} {key : String} (hnew : entries.find? key = none)
    (v : Value) :
    Draft.add ⟨around entries, name⟩ (.assign [] key v) =
      some ⟨around (entries ++ [(key, v)]), name⟩ := by
  have hassign : Entries.assign .dottedKey [] key v .headed entries =
      some (entries ++ [(key, v)]) := by
    simp [Entries.assign, Entries.editAt, Entries.define, hnew, Entries.append]
  rw [Draft.add, h]
  simp [hassign]

/-- So are several keys, each of them new. -/
theorem add_assigns (entries : Entries) {more : Entries}
    (hnodup : ((entries ++ more).map (·.1)).Nodup) :
    (more.map fun e => Statement.assign [] e.1 e.2).foldlM Draft.add ⟨around entries, name⟩ =
      some ⟨around (entries ++ more), name⟩ := by
  induction more generalizing entries with
  | nil => simp
  | cons e more ih =>
    have hnew : entries.find? e.1 = none := by
      rw [Entries.find?_eq_none_iff]
      rw [List.map_append, List.map_cons] at hnodup
      exact fun hmem => (List.nodup_append.1 hnodup).2.2 _ hmem _ (by simp) rfl
    -- the entry moves over to those that are there, and with them it goes into the induction
    have hsplit : entries ++ e :: more = (entries ++ [e]) ++ more := by simp
    rw [hsplit] at hnodup ⊢
    rw [List.map_cons, List.foldlM_cons, add_assign h hnew]
    exact ih _ hnodup

/-- **A heading and the lines under it make one table.** -/
theorem add_section (entries : Entries) (key : String) (before : List String) {more : Entries}
    (hnew : entries.find? key = none) (hnodup : (more.map (·.1)).Nodup) :
    (Statement.heading (name ++ [key]) :: more.map fun e => .assign [] e.1 e.2).foldlM Draft.add
        ⟨around entries, before⟩ =
      some ⟨around (entries ++ [(key, .table .headed more)]), name ++ [key]⟩ := by
  have hhead : Entries.head key entries = some (entries ++ [(key, .table .headed [])]) := by
    simp [Entries.head, hnew, Entries.append]
  have hfirst : Draft.add ⟨around entries, before⟩ (.heading (name ++ [key])) =
      some ⟨around (entries ++ [(key, .table .headed [])]), name ++ [key]⟩ := by
    rw [Draft.add, Draft.editParent, List.getLast?_concat, List.dropLast_concat]
    change ((around entries).editAt .heading (fun _ => Entries.head key) name .headed).bind _ = _
    rw [h, hhead]
    rfl
  rw [List.foldlM_cons, hfirst]
  exact add_assigns (h.last entries key hnew) [] (by simpa using hnodup)

end Section

end FlatWeights.Toml
