import FlatWeights.Proofs.Checkpoint.Header
import FlatWeights.Proofs.Naming.LayerKey
import FlatWeights.Proofs.Resolver
import Mathlib.Data.List.Nodup

/-!
Different keys give different names. The names of a key come out of four steps: the key is read as
one of a block or of the model, its field is renamed by the built-in table, the new field decides on
the layout, and the layout puts the number of the block in front. None of the steps alone keeps keys
apart. The table sends a field to a name that another field may have from the start, a cut makes
three names that a field may have as well, and `block1.1` begins as `block11` does.

`Ordinary` leaves out exactly what can be mistaken: fields and keys that are among the new names of
the table, and those that begin as the names of pieces do. What is then left is that the table is
injective, that the names of pieces are told apart by their beginnings, and that a number without
points is told from what follows by the first point.
-/

set_option autoImplicit false

namespace FlatWeights

namespace Text

/-- A text begins with another one. -/
def Begins (front text : String) : Prop := front.toList <+: text.toList

instance (front text : String) : Decidable (Begins front text) :=
  inferInstanceAs (Decidable (_ <+: _))

end Text

open Text (Begins)

/-! ## Names of layouts -/

namespace Layout

/-- The names of the outputs of a layout. -/
def names : Layout → List String
  | .dropped => []
  | .fusedAttention block ending => attentionRoles.map (attentionName block ending)
  | .chunkedEmbedding stem => [stem ++ ".chunk1", stem ++ ".chunk2"]
  | .whole name => [name]

theorem Outputs.names_eq {layout : Layout} {t : CanonicalTensor} {outputs : List OutputTensor}
    (h : layout.Outputs t outputs) : outputs.map (·.name) = layout.names := by
  cases layout with
  | dropped =>
    obtain rfl : outputs = [] := h
    rfl
  | whole name =>
    obtain rfl : outputs = [t.named name] := h
    rfl
  | fusedAttention block ending =>
    obtain ⟨width, -, rfl⟩ := h
    rfl
  | chunkedEmbedding stem =>
    obtain ⟨first, second, -, rfl⟩ := h
    rfl

/-- The number of a block and the field behind it can be told from the name. -/
theorem blockField_inj {i j : Nat} {f g : String} :
    blockField i f = blockField j g ↔ i = j ∧ f = g := by
  constructor
  · intro h
    have hlist := congrArg String.toList h
    simp only [blockField, String.toList_append, List.append_assoc,
      List.append_cancel_left_eq] at hlist
    -- the first point ends the number, whatever stands in the field
    have hsplit := congrArg (Text.splitOnce? '.') hlist
    simp only [show ".".toList = ['.'] from rfl, List.singleton_append,
      Text.splitOnce?_append _ (not_mem_repr _), Option.some.injEq, Prod.mk.injEq] at hsplit
    exact ⟨repr_inj (String.toList_inj.1 hsplit.1), String.toList_inj.1 hsplit.2⟩
  · rintro ⟨rfl, rfl⟩
    rfl

/-- No layout gives a name twice. -/
theorem nodup_names (layout : Layout) : layout.names.Nodup := by
  cases layout with
  | dropped => exact List.nodup_nil
  | whole name => exact List.nodup_singleton name
  | chunkedEmbedding stem =>
    rw [names, List.nodup_cons, List.mem_singleton]
    refine ⟨fun h => ?_, List.nodup_singleton _⟩
    have hlist := congrArg String.toList h
    simp only [String.toList_append, List.append_cancel_left_eq] at hlist
    exact absurd hlist (by decide)
  | fusedAttention block ending =>
    have hrole {role role' : String} (h : attentionName block ending role =
        attentionName block ending role') : role = role' := by
      have hlist := congrArg String.toList (blockField_inj.1 h).2
      simpa only [String.toList_append, List.append_assoc, List.append_cancel_left_eq,
        List.append_cancel_right_eq, ← List.append_assoc, String.toList_inj] using hlist
    exact List.Nodup.map (fun _ _ h => hrole h) (by decide)

/-! ### Inside a block and outside of one -/

/-- The names of a field, where some fields are cut into pieces with names of their own. -/
def cutNames (cuts : List (String × List String)) (field : String) : List String :=
  if field = "attn.bias" then [] else (cuts.lookup field).getD [field]

/-- The fields of a block that are cut, with the names of their pieces inside of that block. -/
def blockCuts : List (String × List String) :=
  [("attn.c_attn.bias", ["attention.query.bias", "attention.key.bias", "attention.value.bias"]),
    ("attn.c_attn.weight",
      ["attention.query.weights", "attention.key.weights", "attention.value.weights"])]

/-- The fields of the model that are cut, with the names of their pieces. -/
def modelCuts : List (String × List String) :=
  [("wte.weight", ["embeddings.chunk1", "embeddings.chunk2"]),
    ("wpe.weight", ["position_embeddings.chunk1", "position_embeddings.chunk2"])]

theorem lookup_pair {k k' field : String} {names names' : List String} :
    ([(k, names), (k', names')].lookup field).getD [field] =
      if field = k then names else if field = k' then names' else [field] := by
  simp only [List.lookup_cons, List.lookup_nil]
  by_cases h : field = k
  · simp [h]
  · by_cases h' : field = k'
    · rw [beq_false_of_ne h]
      simp [h', h' ▸ h]
    · rw [beq_false_of_ne h, beq_false_of_ne h']
      simp [h, h']

/-- A field of a block is cut as the table says and put under its block. -/
theorem names_block (index : Nat) (field renamed : String) :
    (Layout.of (.block index field) renamed).names =
      (cutNames blockCuts renamed).map (blockField index) := by
  rw [Layout.of, cutNames, blockCuts, lookup_pair]
  split
  · rfl
  · split
    · rfl
    · split <;> rfl

/-- A name outside the blocks is cut as the table says. -/
theorem names_global (field renamed : String) :
    (Layout.of (.global field) renamed).names = cutNames modelCuts renamed := by
  rw [Layout.of, cutNames, modelCuts, lookup_pair]
  split
  · rfl
  · split
    · rfl
    · split <;> rfl

theorem mem_of_lookup {cuts : List (String × List String)} {field : String} {names : List String}
    (h : cuts.lookup field = some names) : (field, names) ∈ cuts := by
  obtain ⟨before, after, rfl, -⟩ := List.lookup_eq_some_iff.1 h
  simp

/-- A name of a field is that of a piece or the field itself. -/
theorem mem_cutNames {cuts : List (String × List String)} {field x : String}
    (h : x ∈ cutNames cuts field) : (∃ cut ∈ cuts, cut.1 = field ∧ x ∈ cut.2) ∨ x = field := by
  unfold cutNames at h
  split at h
  · exact absurd h (by simp)
  · cases hcut : cuts.lookup field with
    | none =>
      rw [hcut] at h
      exact .inr (List.mem_singleton.1 h)
    | some names =>
      rw [hcut] at h
      exact .inl ⟨(field, names), mem_of_lookup hcut, rfl, h⟩

/-- Two fields are given different names, where neither begins as a piece does and no piece of one
field has the name of a piece of another one. -/
theorem cutNames_disjoint {cuts : List (String × List String)} {fronts : List String}
    (hpieces : ∀ cut ∈ cuts, ∀ x ∈ cut.2, ∃ front ∈ fronts, Begins front x)
    (hapart : ∀ cut ∈ cuts, ∀ cut' ∈ cuts, cut.1 ≠ cut'.1 → ∀ x ∈ cut.2, x ∉ cut'.2)
    {f g : String} (hne : f ≠ g) (hf : ∀ front ∈ fronts, ¬ Begins front f)
    (hg : ∀ front ∈ fronts, ¬ Begins front g) : ∀ x ∈ cutNames cuts f, x ∉ cutNames cuts g := by
  intro x hx hx'
  rcases mem_cutNames hx with ⟨cut, hcut, hfield, hmem⟩ | rfl <;>
    rcases mem_cutNames hx' with ⟨cut', hcut', hfield', hmem'⟩ | rfl
  · exact hapart cut hcut cut' hcut' (hfield ▸ hfield' ▸ hne) x hmem hmem'
  · obtain ⟨front, hfront, hbegins⟩ := hpieces cut hcut x hmem
    exact hg front hfront hbegins
  · obtain ⟨front, hfront, hbegins⟩ := hpieces cut' hcut' x hmem'
    exact hf front hfront hbegins
  · exact hne rfl

end Layout

/-! ## Fields under new names -/

/-- The new names of the built-in table. -/
def builtInNames : List String := builtInFields.map (·.2)

theorem mem_builtInNames {field name : String} (h : (field, name) ∈ builtInFields) :
    name ∈ builtInNames := List.mem_map_of_mem h

/-- A map made of a list knows nothing but the list. -/
theorem SortedMap.mem_of_find?_ofList {α : Type} {l : List (String × α)} {k : String} {v : α}
    (h : (SortedMap.ofList l).find? k = some v) : (k, v) ∈ l := by
  have hfold (m : SortedMap α) (hm : (l.foldl (fun m e => m.insert e.1 e.2) m).find? k = some v) :
      (k, v) ∈ l ∨ m.find? k = some v := by
    clear h
    induction l generalizing m with
    | nil => exact .inr hm
    | cons e l ih =>
      rcases ih _ hm with hmem | hfound
      · exact .inl (List.mem_cons_of_mem e hmem)
      · rw [SortedMap.find?_insert] at hfound
        split at hfound
        · rename_i hk
          obtain rfl := Option.some.inj hfound
          exact .inl (by rw [hk]; exact List.mem_cons_self)
        · exact .inr hfound
  rcases hfold _ h with hmem | hempty
  · exact hmem
  · exact absurd hempty (by simp [SortedMap.find?, SortedMap.empty])

namespace Naming

/-- The new name of a field without any configuration. -/
def renamed (field : String) : String := ({} : Naming).fieldMap.rename field

/-- A field is renamed by the table or keeps its name. -/
theorem renamed_cases (field : String) :
    (field, renamed field) ∈ builtInFields ∨ renamed field = field := by
  rw [renamed, FieldMap.rename]
  cases hfound : ({} : Naming).fieldMap.table.find? field with
  | none => exact .inr rfl
  | some name => exact .inl (SortedMap.mem_of_find?_ofList hfound)

/-- Fields keep apart under their new names, if they are not new names of other fields. -/
theorem renamed_ne {f g : String} (hne : f ≠ g) (hf : f ∉ builtInNames) (hg : g ∉ builtInNames) :
    renamed f ≠ renamed g := by
  have hinjective : ∀ e ∈ builtInFields, ∀ e' ∈ builtInFields, e.2 = e'.2 → e.1 = e'.1 := by
    decide +kernel
  intro heq
  rcases renamed_cases f with hmem | hkept <;> rcases renamed_cases g with hmem' | hkept'
  · exact hne (hinjective _ hmem _ hmem' heq)
  · have hnew : renamed f ∈ builtInNames := mem_builtInNames hmem
    exact hg (heq.trans hkept' ▸ hnew)
  · have hnew : renamed g ∈ builtInNames := mem_builtInNames hmem'
    exact hf (heq.symm.trans hkept ▸ hnew)
  · exact hne (hkept.symm.trans (heq.trans hkept'))

/-- A front that no built-in name has is not put on by renaming. -/
theorem renamed_not_begins {front field : String} (hfield : ¬ Begins front field)
    (htable : ∀ name ∈ builtInNames, ¬ Begins front name) : ¬ Begins front (renamed field) := by
  rcases renamed_cases field with hmem | hkept
  · exact htable _ (mem_builtInNames hmem)
  · rwa [hkept]

/-! ## Keys that keep apart -/

/-- How the names of the pieces of a fused attention tensor begin inside of a block. -/
def pieceFronts : List String := ["attention.query.", "attention.key.", "attention.value."]

/-- How the names begin that are given to the fields of blocks and to the chunks of embeddings. -/
def modelFronts : List String := ["block", "embeddings.chunk", "position_embeddings.chunk"]

/-- Keys whose names are not those of other keys. The key of a field of a block has the digits of
the number without zeros in front, and its field is no new name of another field and does not begin
as a piece does. A key of the model is no new name either, and does not begin as the fields of
blocks or the chunks of embeddings do. -/
inductive Ordinary : String → Prop where
  | block {index : Nat} {field : String} (hindex : index < Size.limit) (hfield : field ≠ "")
    (hnew : field ∉ builtInNames) (hfronts : ∀ front ∈ pieceFronts, ¬ Begins front field) :
    Ordinary (LayerKey.blockName "h" index field)
  | global {key : String} (hkey : LayerKey.parse key "h" = .global key) (hnew : key ∉ builtInNames)
    (hfronts : ∀ front ∈ modelFronts, ¬ Begins front key) : Ordinary key

/-- The names of a field of a block. -/
theorem layout_blockName {index : Nat} {field : String} (hindex : index < Size.limit)
    (hfield : field ≠ "") : (({} : Naming).layout (LayerKey.blockName "h" index field)).names =
      (Layout.cutNames Layout.blockCuts (renamed field)).map (Layout.blockField index) := by
  have hkey : ({} : Naming).layerKey (LayerKey.blockName "h" index field) = .block index field :=
    LayerKey.parse_blockName hindex hfield
  rw [layout, hkey]
  exact Layout.names_block index field (renamed field)

/-- The names of a key outside the blocks. -/
theorem layout_global {key : String} (hkey : LayerKey.parse key "h" = .global key) :
    (({} : Naming).layout key).names = Layout.cutNames Layout.modelCuts (renamed key) := by
  have hkey : ({} : Naming).layerKey key = .global key := hkey
  rw [layout, hkey]
  exact Layout.names_global key (renamed key)

/-- A new name of a field of a block does not begin as a piece does, if the field does not. -/
theorem renamed_pieceFronts {field : String}
    (hfronts : ∀ front ∈ pieceFronts, ¬ Begins front field) :
    ∀ front ∈ pieceFronts, ¬ Begins front (renamed field) := by
  have htable : ∀ front ∈ pieceFronts, ∀ name ∈ builtInNames, ¬ Begins front name := by
    decide +kernel
  intro front hfront
  exact renamed_not_begins (hfronts front hfront) (htable front hfront)

theorem renamed_modelFronts {key : String} (hfronts : ∀ front ∈ modelFronts, ¬ Begins front key) :
    ∀ front ∈ modelFronts, ¬ Begins front (renamed key) := by
  have htable : ∀ front ∈ modelFronts, ∀ name ∈ builtInNames, ¬ Begins front name := by
    decide +kernel
  intro front hfront
  exact renamed_not_begins (hfronts front hfront) (htable front hfront)

/-- A field of a block and a key of the model share no name, as the names of the one begin as those
of the other do not. -/
theorem names_block_global {index : Nat} {field key : String}
    (hfronts : ∀ front ∈ modelFronts, ¬ Begins front key) :
    ∀ x ∈ (Layout.cutNames Layout.blockCuts field).map (Layout.blockField index),
      x ∉ Layout.cutNames Layout.modelCuts (renamed key) := by
  intro x hx hx'
  obtain ⟨suffix, -, rfl⟩ := List.mem_map.1 hx
  have hblock : Begins "block" (Layout.blockField index suffix) := by
    refine ⟨index.repr.toList ++ ".".toList ++ suffix.toList, ?_⟩
    simp [Layout.blockField]
  have hcuts : ∀ cut ∈ Layout.modelCuts, ∀ y ∈ cut.2, ¬ Begins "block" y := by decide
  rcases Layout.mem_cutNames hx' with ⟨cut, hcut, -, hmem⟩ | heq
  · exact hcuts cut hcut _ hmem hblock
  · rw [heq] at hblock
    exact renamed_modelFronts hfronts "block" (by decide) hblock

/-- **Different keys give different names.** -/
theorem names_disjoint {key key' : String} (h : Ordinary key) (h' : Ordinary key')
    (hne : key ≠ key') :
    ∀ x ∈ (({} : Naming).layout key).names, x ∉ (({} : Naming).layout key').names := by
  cases h with
  | @block index field hindex hfield hnew hfronts =>
    rw [layout_blockName hindex hfield]
    cases h' with
    | @block index' field' hindex' hfield' hnew' hfronts' =>
      rw [layout_blockName hindex' hfield']
      -- the names of two blocks differ in the number, those of one block in the field
      intro x hx hx'
      obtain ⟨y, hy, rfl⟩ := List.mem_map.1 hx
      obtain ⟨y', hy', heq⟩ := List.mem_map.1 hx'
      obtain ⟨rfl, rfl⟩ := Layout.blockField_inj.1 heq
      have hfields : field ≠ field' := by
        rintro rfl
        exact hne rfl
      exact Layout.cutNames_disjoint (by decide +kernel) (by decide +kernel)
        (renamed_ne hfields hnew hnew')
        (renamed_pieceFronts hfronts) (renamed_pieceFronts hfronts') y' hy hy'
    | global hkey' hnew' hfronts' =>
      rw [layout_global hkey']
      exact names_block_global hfronts'
  | global hkey hnew hfronts =>
    rw [layout_global hkey]
    cases h' with
    | @block index' field' hindex' hfield' hnew' hfronts' =>
      rw [layout_blockName hindex' hfield']
      intro x hx hx'
      exact names_block_global hfronts x hx' hx
    | global hkey' hnew' hfronts' =>
      rw [layout_global hkey']
      exact Layout.cutNames_disjoint (by decide +kernel) (by decide +kernel)
        (renamed_ne hne hnew hnew')
        (renamed_modelFronts hfronts) (renamed_modelFronts hfronts')

end Naming

end FlatWeights
