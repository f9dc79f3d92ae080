import FlatWeights.Config.Reader
import FlatWeights.Proofs.Toml.Numbers
import FlatWeights.Proofs.Toml.Tables
import Mathlib.Data.List.Nodup

/-!
A configuration is read back from the document that is written for it. Every line of the document
makes one statement, every section one table, and every table gives its part of the configuration
back. Texts may be anything, so no configuration is excepted but those whose buffer size is no
integer of the configuration language, for which no document is written. Main statement:
`parse_toToml?`.
-/

set_option autoImplicit false

namespace FlatWeights.Config

open Toml

/-- A field of a section, as it is written and as it is read. -/
structure Field where
  key : String
  written : List Char
  value : Value
  reads : ReadsAs written value

namespace Field

/-- A field that is a text. -/
def ofString (key text : String) : Field where
  key := key
  written := writeString text.toList
  value := .string text
  reads := by simpa using readsAs_writeString text.toList

/-- A field that is a truth value. -/
def ofBool (key : String) (b : Bool) : Field where
  key := key
  written := booleanText b
  value := .boolean b
  reads := by
    cases b
    · exact readsAs_false
    · exact readsAs_true

/-- A field that is a size. -/
def ofSize (key : String) (n : Nat) (h : isInteger n = true) : Field where
  key := key
  written := n.repr.toList
  value := .integer n
  reads := readsAs_repr h

/-- The entry that a field makes in the table of its section. -/
def entry (field : Field) : String × Value := (field.key, field.value)

/-- The line of a field, with what is read from it. -/
def line (field : Field) : List Char × Option Statement :=
  (Config.line (writeKey field.key.toList) field.written,
    some (.assign [] field.key field.value))

/-- The line of a field assigns its value. -/
theorem lineOf (field : Field) : LineOf field.line.1 field.line.2 := by
  have h := lineOf_assign field.reads field.key.toList
  rwa [String.ofList_toList] at h

end Field

/-- The lines of a section. -/
def sectionLines (name : String) (path : List String) (fields : List Field) :
    List (List Char × Option Statement) :=
  (heading name, some (.heading path)) :: fields.map Field.line

variable (c : Config)

/-- The fields of reading and writing files. -/
def storageFields (h : isInteger c.storage.bufferSize = true) : List Field :=
  [.ofSize "buffer_size" c.storage.bufferSize h, .ofBool "use_mmap" c.storage.useMmap]

/-- The fields of the output. -/
def outputFields : List Field :=
  [.ofString "dir" c.output.dir, .ofBool "atomic_writes" c.output.atomicWrites,
    .ofString "on_collision" c.output.onCollision.word]

/-- The fields of the naming without the new names, which are a section of their own. -/
def namingFields : List Field :=
  .ofString "block_prefix" c.naming.blockLabel ::
    c.naming.strip.toList.map (.ofString "strip_prefix")

/-- The new names of fields. -/
def mapFields : List Field := c.naming.overrides.entries.map fun e => .ofString e.1 e.2

/-- The document of a configuration, line by line. -/
def documentLines (h : isInteger c.storage.bufferSize = true) :
    List (List Char × Option Statement) :=
  sectionLines "storage" ["storage"] (c.storageFields h) ++ [(['\n'], none)] ++
    sectionLines "output" ["output"] c.outputFields ++ [(['\n'], none)] ++
    sectionLines "naming" ["naming"] c.namingFields ++ [(['\n'], none)] ++
    sectionLines "naming.map" ["naming", "map"] c.mapFields

/-- A key of bare characters is written as it is. -/
theorem writeKey_bare {key : List Char} (h : key ≠ [] ∧ key.all isBareKeyChar = true) :
    writeKey key = key := by
  rw [writeKey, if_pos h]

/-- The lines together are the sections with an empty line between them. -/
theorem flatMap_documentLines (h : isInteger c.storage.bufferSize = true) :
    (c.documentLines h).flatMap (·.1) = ['\n'].intercalate c.sections := by
  have hmap : (c.mapFields.map Field.line).flatMap (·.1) =
      c.naming.overrides.entries.flatMap fun e =>
        stringLine (writeKey e.1.toList) e.2 := by
    rw [mapFields, List.map_map, List.flatMap_map]
    rfl
  cases hstrip : c.naming.strip <;>
    simp (disch := decide) [documentLines, sectionLines, storageFields, outputFields, namingFields,
      sections, List.intercalate, Field.line, Field.ofString, Field.ofBool, Field.ofSize,
      stringLine, writeKey_bare, hmap, hstrip]

/-- Each of them is read back. -/
theorem lineOf_documentLines (h : isInteger c.storage.bufferSize = true) :
    ∀ l ∈ c.documentLines h, LineOf l.1 l.2 := by
  have hsection : ∀ (name : String) (path : List String) (fields : List Field),
      LineOf (heading name) (some (.heading path)) →
      ∀ l ∈ sectionLines name path fields, LineOf l.1 l.2 := by
    intro name path fields hheading l hl
    rcases List.mem_cons.1 hl with rfl | hl
    · exact hheading
    · obtain ⟨field, -, rfl⟩ := List.mem_map.1 hl
      exact field.lineOf
  have hheading : ∀ (name : String) (path : List String),
      (∀ rest, Toml.line (heading name ++ rest) = some (some (.heading path), rest)) →
      LineOf (heading name) (some (.heading path)) := fun name path hread =>
    ⟨by simp [heading], hread⟩
  intro l hl
  simp only [documentLines, List.mem_append, List.mem_singleton] at hl
  -- four tables with an empty line between each two
  rcases hl with (((((hl | rfl) | hl) | rfl) | hl) | rfl) | hl
  · exact hsection _ _ _ (hheading _ _ fun _ => rfl) l hl
  · exact lineOf_empty
  · exact hsection _ _ _ (hheading _ _ fun _ => rfl) l hl
  · exact lineOf_empty
  · exact hsection _ _ _ (hheading _ _ fun _ => rfl) l hl
  · exact lineOf_empty
  · exact hsection _ _ _ (hheading _ _ fun _ => rfl) l hl

/-- The statements of a section. -/
def sectionStatements (path : List String) (fields : List Field) : List Statement :=
  .heading path :: (fields.map Field.entry).map fun e => .assign [] e.1 e.2

/-- The statements of the document of a configuration. -/
def documentStatements (h : isInteger c.storage.bufferSize = true) : List Statement :=
  sectionStatements ["storage"] (c.storageFields h) ++
    sectionStatements ["output"] c.outputFields ++
    sectionStatements ["naming"] c.namingFields ++
    sectionStatements ["naming", "map"] c.mapFields

/-- The tables of a configuration. -/
def documentEntries (h : isInteger c.storage.bufferSize = true) : Entries :=
  [("storage", .table .headed ((c.storageFields h).map Field.entry)),
    ("output", .table .headed (c.outputFields.map Field.entry)),
    ("naming", .table .headed (c.namingFields.map Field.entry ++
      [("map", .table .headed (c.mapFields.map Field.entry))]))]

/-- The statements of a section are its header and its fields. -/
theorem filterMap_sectionLines (name : String) (path : List String) (fields : List Field) :
    (sectionLines name path fields).filterMap (·.2) = sectionStatements path fields := by
  simp [sectionLines, sectionStatements, Field.line, Field.entry, List.filterMap_map,
    Function.comp_def]

/-- The document makes the statements of its lines. -/
theorem statements?_documentLines (h : isInteger c.storage.bufferSize = true) :
    statements? ((c.documentLines h).flatMap (·.1)) = some (c.documentStatements h) := by
  have hread := many_line (c.lineOf_documentLines h)
  have hkept : ((c.documentLines h).map (·.2)).filterMap id = c.documentStatements h := by
    simp [documentLines, documentStatements, filterMap_sectionLines]
  -- The document begins with a bracket, so there is no byte order mark to leave out.
  obtain ⟨later, hlater⟩ : ∃ later, (c.documentLines h).flatMap (·.1) = '[' :: later := ⟨_, rfl⟩
  rw [hlater] at hread ⊢
  change (if skipBlanks (Text.Parser.many Toml.line ('[' :: later)).2 = [] then
    some ((Text.Parser.many Toml.line ('[' :: later)).1.filterMap id) else none) = _
  rw [hread, hkept]
  rfl

/-- The keys of a map are different, so the section of the new names defines none twice. -/
theorem nodup_mapFields : ((c.mapFields.map Field.entry).map (·.1)).Nodup := by
  have hkeys : (c.mapFields.map Field.entry).map (·.1) = c.naming.overrides.keys := by
    simp [mapFields, Field.entry, Field.ofString, SortedMap.keys]
  rw [hkeys]
  exact c.naming.overrides.keys_pairwise.imp fun hlt heq => by
    subst heq
    exact String.lt_irrefl _ hlt

theorem find?_namingFields : Entries.find? (c.namingFields.map Field.entry) "map" = none := by
  rw [namingFields]
  cases c.naming.strip <;> rfl

/-- The statements make the tables of the configuration. -/
theorem ofStatements?_documentStatements (h : isInteger c.storage.bufferSize = true) :
    Entries.ofStatements? (c.documentStatements h) = some (c.documentEntries h) := by
  have hstorage : (((c.storageFields h).map Field.entry).map (·.1)).Nodup := by
    change ["buffer_size", "use_mmap"].Nodup
    decide
  have houtput : ((c.outputFields.map Field.entry).map (·.1)).Nodup := by
    change ["dir", "atomic_writes", "on_collision"].Nodup
    decide
  have hnaming : ((c.namingFields.map Field.entry).map (·.1)).Nodup := by
    cases hstrip : c.naming.strip <;>
      simp [namingFields, hstrip, Field.entry, Field.ofString]
  let opened : Entries := [("storage", .table .headed ((c.storageFields h).map Field.entry))]
  let named : Entries := opened ++ [("output", .table .headed (c.outputFields.map Field.entry))]
  -- every section is added at the end, the last one at the end of the section before it
  have hfirst := add_section focus_nil [] "storage" [] rfl hstorage
  have hsecond := add_section focus_nil opened "output" ["storage"] rfl houtput
  have hthird := add_section focus_nil named "naming" ["output"] rfl hnaming
  have hlast := add_section (focus_nil.last named "naming" rfl) _ "map" ["naming"]
    c.find?_namingFields c.nodup_mapFields
  have hrun : (c.documentStatements h).foldlM Draft.add {} =
      some ⟨c.documentEntries h, ["naming", "map"]⟩ := by
    rw [documentStatements, List.foldlM_append, List.foldlM_append, List.foldlM_append]
    refine (congrArg (fun d => Option.bind (Option.bind (Option.bind d _) _) _) hfirst).trans ?_
    refine (congrArg (fun d => Option.bind (Option.bind d _) _) hsecond).trans ?_
    refine (congrArg (fun d => Option.bind d _) hthird).trans ?_
    exact hlast
  rw [Entries.ofStatements?, hrun]
  rfl

/-- The renamings are read back from their table. -/
theorem stringMap?_mapFields :
    stringMap? (.table .headed (c.mapFields.map Field.entry)) = some c.naming.overrides := by
  have hpairs : (c.mapFields.map Field.entry).mapM
      (fun e => (string? e.2).map fun s => (e.1, s)) = some c.naming.overrides.entries := by
    have hread : ∀ entries : List (String × String),
        (entries.map fun e => (Field.ofString e.1 e.2).entry).mapM
          (fun e => (string? e.2).map fun s => (e.1, s)) = some entries := by
      intro entries
      induction entries with
      | nil => rfl
      | cons e entries ih =>
        rw [List.map_cons, List.mapM_cons, ih]
        rfl
    rw [mapFields, List.map_map]
    exact hread _
  rw [stringMap?, entries?]
  change Option.bind (List.mapM _ _) _ = _
  rw [hpairs]
  -- the entries come back in the order of the map, so the map is built again as it was
  exact congrArg some (SortedMap.ofList_entries _)

/-- So is the storage section, -/
theorem storage?_storageFields (h : isInteger c.storage.bufferSize = true) :
    storage? (.named ((c.storageFields h).map Field.entry)) = some c.storage := by
  rfl

/-- the output section, -/
theorem output?_outputFields :
    output? (.named (c.outputFields.map Field.entry)) = some c.output := by
  have hpolicy : Fields.get (.named (c.outputFields.map Field.entry)) "on_collision" 2 policy?
      .error = some c.output.onCollision := CollisionPolicy.ofWord?_word _
  rw [output?]
  simp only [hpolicy]
  rfl

/-- and the naming section with its renamings. -/
theorem naming?_namingFields :
    naming? (.named (c.namingFields.map Field.entry ++
      [("map", .table .headed (c.mapFields.map Field.entry))])) = some c.naming := by
  have hmap : Fields.get (.named (c.namingFields.map Field.entry ++
      [("map", .table .headed (c.mapFields.map Field.entry))])) "map" 2 stringMap? .empty =
      some c.naming.overrides := by
    have hfind : Entries.find? (c.namingFields.map Field.entry ++
        [("map", .table .headed (c.mapFields.map Field.entry))]) "map" =
        some (.table .headed (c.mapFields.map Field.entry)) := by
      rw [Entries.find?_append_of_none c.find?_namingFields, Entries.find?_singleton]
    rw [Fields.get, Fields.find?, hfind]
    exact c.stringMap?_mapFields
  have hstrip : Fields.get (.named (c.namingFields.map Field.entry ++
      [("map", .table .headed (c.mapFields.map Field.entry))])) "strip_prefix" 1
      (fun v => (string? v).map some) none = some c.naming.strip := by
    rw [namingFields]
    cases c.naming.strip <;> rfl
  rw [naming?]
  simp only [hmap, hstrip]
  rfl

/-- The tables give the configuration. -/
theorem ofEntries?_documentEntries (h : isInteger c.storage.bufferSize = true) :
    ofEntries? (c.documentEntries h) = some c := by
  have hstorage : section? (c.documentEntries h) "storage" storage? {} = some c.storage :=
    storage?_storageFields c h
  have houtput : section? (c.documentEntries h) "output" output? {} = some c.output :=
    output?_outputFields c
  have hnaming : section? (c.documentEntries h) "naming" naming? {} = some c.naming :=
    naming?_namingFields c
  rw [ofEntries?]
  simp only [hstorage, houtput, hnaming]
  rfl

/-- **A configuration is read back from its document**, in all its fields and whatever its texts;
one whose buffer size is too large has no document. -/
theorem parse_toToml? : c.toToml?.map parse =
    if c.storage.bufferSize ≤ 9223372036854775807 then some (.ok c) else none := by
  have hinteger : isInteger c.storage.bufferSize = true ↔
      c.storage.bufferSize ≤ 9223372036854775807 := by
    have hmin : Int64.minValue.toInt = -9223372036854775808 := rfl
    have hmax : Int64.maxValue.toInt = 9223372036854775807 := rfl
    rw [isInteger, hmin, hmax, Bool.and_eq_true, decide_eq_true_iff, decide_eq_true_iff]
    omega
  rw [toToml?]
  by_cases h : isInteger c.storage.bufferSize = true
  · have hread : parse (String.ofList (['\n'].intercalate c.sections)) = .ok c := by
      rw [parse, read?, String.toList_ofList, ← c.flatMap_documentLines h,
        c.statements?_documentLines h, Option.bind_some, c.ofStatements?_documentStatements h,
        Option.bind_some, c.ofEntries?_documentEntries h]
    rw [if_pos h, if_pos (hinteger.1 h), Option.map_some, hread]
  · rw [if_neg h, if_neg (mt hinteger.2 h), Option.map_none]

end FlatWeights.Config
