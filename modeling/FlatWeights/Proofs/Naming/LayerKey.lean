import FlatWeights.Naming.LayerKey
import Mathlib.Data.List.Induction
import Mathlib.Data.Nat.Digits.Defs

/-!
The grammar of keys. The key of a field of a block is the label of blocks, digits and the field,
with points between them (`FieldOfBlock`), and reading it takes the parts off from the left. That
the parts are found again although the label and the field may hold points and digits themselves
rests on the digits in the middle alone: they hold no point, so they end at the first point behind
the label, wherever the field goes on with one (`parse_eq_block_iff`).

The number of a block is given by the weights of its digits, so that zeros in front count nothing.
Reading it goes through the digits from the left and multiplies what it has by ten each time.
-/

set_option autoImplicit false

namespace FlatWeights

/-! ## Digits -/

theorem isDigit_of_mem_repr {n : Nat} {c : Char} (h : c ∈ n.repr.toList) : c.isDigit = true := by
  rw [Nat.toList_repr] at h
  exact Nat.isDigit_of_mem_toDigits (by decide) (by decide) h

/-- The digits of a number hold no point. -/
theorem not_mem_repr (n : Nat) : '.' ∉ n.repr.toList := by
  intro h
  exact absurd (isDigit_of_mem_repr h) (by decide)

/-- Numbers with one decimal form are one. -/
theorem repr_inj {i j : Nat} (h : i.repr = j.repr) : i = j := by
  have hvalue := congrArg (fun digits => Nat.ofDigitChars 10 digits.toList 0) h
  simpa only [Nat.toList_repr, Nat.ofDigitChars_ten_toDigits] using hvalue

namespace LayerKey

/-- The number that a decimal digit stands for. -/
def digitValue (c : Char) : Nat := c.toNat - '0'.toNat

/-- A text of decimal digits denotes a number. The last digit counts once, the one before it ten
times, and so on. -/
structure Denotes (digits : String) (n : Nat) : Prop where
  nonempty : digits ≠ ""
  decimal : ∀ c ∈ digits.toList, '0' ≤ c ∧ c ≤ '9'
  value : Nat.ofDigits 10 (digits.toList.reverse.map digitValue) = n

/-- Going through digits from the left gives the sum of their weights. -/
theorem ofDigitChars_eq_ofDigits (cs : List Char) :
    Nat.ofDigitChars 10 cs 0 = Nat.ofDigits 10 (cs.reverse.map digitValue) := by
  induction cs using List.reverseRecOn with
  | nil => rfl
  | append_singleton cs c ih =>
    rw [Nat.ofDigitChars_append, Nat.ofDigitChars_cons, Nat.ofDigitChars_nil, ih,
      List.reverse_append, List.reverse_singleton, List.singleton_append, List.map_cons,
      Nat.ofDigits_cons, digitValue, Nat.add_comm]

theorem isDigit_iff {c : Char} : c.isDigit = true ↔ '0' ≤ c ∧ c ≤ '9' := by
  simp [Char.isDigit, Char.le_def]

variable {label name field digits : String} {index n : Nat}

/-- Digits are read as the number that they denote, if that is a size. -/
theorem index?_eq_some_iff :
    index? digits.toList = some n ↔ Denotes digits n ∧ n < Size.limit := by
  have hdigits : (digits.toList ≠ [] ∧ digits.toList.all Char.isDigit = true) ↔
      digits ≠ "" ∧ ∀ c ∈ digits.toList, '0' ≤ c ∧ c ≤ '9' := by
    simp only [List.all_eq_true, isDigit_iff, ne_eq, String.toList_eq_nil_iff]
  rw [index?]
  constructor
  · intro h
    split at h
    · rename_i hform
      obtain ⟨rfl, hlimit⟩ := Size.check?_eq_some_iff.1 h
      obtain ⟨hne, hdecimal⟩ := hdigits.1 hform
      exact ⟨⟨hne, hdecimal, (ofDigitChars_eq_ofDigits _).symm⟩, hlimit⟩
    · exact absurd h (by simp)
  · rintro ⟨hdenotes, hlimit⟩
    rw [if_pos (hdigits.2 ⟨hdenotes.nonempty, hdenotes.decimal⟩), ofDigitChars_eq_ofDigits,
      hdenotes.value]
    exact Size.check?_eq_some_iff.2 ⟨rfl, hlimit⟩

theorem Denotes.not_mem_point (h : Denotes digits n) : '.' ∉ digits.toList := by
  intro hmem
  exact absurd (h.decimal '.' hmem) (by decide)

/-- A number is denoted by its own digits. -/
theorem denotes_repr (n : Nat) : Denotes n.repr n := by
  refine ⟨?_, ?_, ?_⟩
  · intro hempty
    have hnone : n.repr.toList = [] := String.toList_eq_nil_iff.2 hempty
    rw [Nat.toList_repr] at hnone
    exact Nat.toDigits_ne_nil hnone
  · intro c hc
    exact isDigit_iff.1 (isDigit_of_mem_repr hc)
  · rw [← ofDigitChars_eq_ofDigits, Nat.toList_repr, Nat.ofDigitChars_ten_toDigits]

/-! ## Keys -/

/-- A name is the key of a field of the block with a number. -/
inductive FieldOfBlock (label : String) : String → Nat → String → Prop where
  | key {digits field : String} {index : Nat} (hdigits : Denotes digits index)
    (hindex : index < Size.limit) (hfield : field ≠ "") :
    FieldOfBlock label (label ++ "." ++ digits ++ "." ++ field) index field

/-- A name is one of a block if it is the label, digits and a field. -/
theorem blockOf?_eq_some_iff : blockOf? label.toList name.toList = some (index, field.toList) ↔
    FieldOfBlock label name index field := by
  constructor
  · intro h
    simp only [blockOf?, Option.bind_eq_bind, Option.bind_eq_some_iff,
      Text.after?_eq_some_iff] at h
    obtain ⟨pointed, hname, numbered, rfl, ⟨digits, rest⟩, hsplit, i, hindex, hfield⟩ := h
    obtain ⟨rfl, -⟩ := Text.eq_of_splitOnce? hsplit
    split at hfield
    · exact absurd hfield (by simp)
    · rename_i hne
      obtain ⟨rfl, rfl⟩ := Prod.mk.inj (Option.some.inj hfield)
      rw [← String.toList_ofList (l := digits)] at hindex
      obtain ⟨hdigits, hlimit⟩ := index?_eq_some_iff.1 hindex
      -- the four parts that were cut off make up the name again
      have hparts : name = label ++ "." ++ String.ofList digits ++ "." ++ field := by
        rw [← String.toList_inj, hname]
        simp
      rw [hparts]
      exact .key hdigits hlimit (mt String.toList_eq_nil_iff.2 hne)
  · rintro ⟨hdigits, hlimit, hfield⟩
    rename_i digits
    have hname : (label ++ "." ++ digits ++ "." ++ field).toList =
        label.toList ++ (['.'] ++ (digits.toList ++ '.' :: field.toList)) := by
      simp
    have hne : field.toList ≠ [] := mt String.toList_eq_nil_iff.1 hfield
    simp only [blockOf?, hname, Text.after?_append, Option.bind_eq_bind, Option.bind_some,
      Text.splitOnce?_append field.toList hdigits.not_mem_point,
      index?_eq_some_iff.2 ⟨hdigits, hlimit⟩, if_neg hne]

/-- A name is read as the key of a field of a block exactly if it is one. -/
theorem parse_eq_block_iff :
    parse name label = .block index field ↔ FieldOfBlock label name index field := by
  rw [← blockOf?_eq_some_iff, parse]
  cases blockOf? label.toList name.toList with
  | none => simp
  | some found =>
    obtain ⟨i, rest⟩ := found
    simp only [block.injEq, Option.some.injEq, Prod.mk.injEq, ← String.toList_inj,
      String.toList_ofList]

/-- Every other name is read as it is. -/
theorem parse_eq_global_iff {key : String} : parse name label = .global key ↔
    key = name ∧ ¬ ∃ index field, FieldOfBlock label name index field := by
  simp only [← parse_eq_block_iff]
  rw [parse]
  cases blockOf? label.toList name.toList with
  | none => simp [eq_comm]
  | some found => simp

/-- A name is the key of one field of one block at most. -/
theorem FieldOfBlock.unique {index' : Nat} {field' : String}
    (h : FieldOfBlock label name index field) (h' : FieldOfBlock label name index' field') :
    index = index' ∧ field = field' :=
  LayerKey.block.inj ((parse_eq_block_iff.2 h).symm.trans (parse_eq_block_iff.2 h'))

/-- The key of a field of a block. -/
def blockName (label : String) (index : Nat) (field : String) : String :=
  label ++ "." ++ index.repr ++ "." ++ field

/-- The key of a field of a block is read as that. -/
theorem parse_blockName {label field : String} {index : Nat} (hindex : index < Size.limit)
    (hfield : field ≠ "") : parse (blockName label index field) label = .block index field :=
  parse_eq_block_iff.2 (.key (denotes_repr index) hindex hfield)

/-- **How keys are read.** A name is read as the key of a field of a block exactly if it is one, and
it is one of one field and one block at most; every other name stays as it is. The key that is made
for a field of a block is read as that, whatever the label and the field are. -/
theorem parse_exact (name label : String) :
    (∀ index field, parse name label = .block index field ↔
      FieldOfBlock label name index field) ∧
    (∀ index field index' field', FieldOfBlock label name index field →
      FieldOfBlock label name index' field' → index = index' ∧ field = field') ∧
    (∀ key, parse name label = .global key ↔
      key = name ∧ ¬ ∃ index field, FieldOfBlock label name index field) ∧
    ∀ index < Size.limit, ∀ field : String, field ≠ "" →
      parse (blockName label index field) label = .block index field :=
  ⟨fun _ _ => parse_eq_block_iff, fun _ _ _ _ h h' => h.unique h',
    fun _ => parse_eq_global_iff, fun _ hindex _ hfield => parse_blockName hindex hfield⟩

/-- A label with a point and a digit, zeros before the number, and a field that begins with a
point. -/
theorem parse_exact_padded :
    FieldOfBlock "m.0" "m.0.007..x" 7 ".x" ∧ parse "m.0.007..x" "m.0" = .block 7 ".x" := by
  have hdecimal : "007".toList.all Char.isDigit = true := by decide
  have hdigits : Denotes "007" 7 := by
    refine ⟨by decide, fun c hc => ?_, by decide⟩
    exact isDigit_iff.1 (List.all_eq_true.1 hdecimal c hc)
  have hparts : "m.0.007..x" = "m.0" ++ "." ++ "007" ++ "." ++ ".x" := by decide
  have hkey : FieldOfBlock "m.0" "m.0.007..x" 7 ".x" := by
    rw [hparts]
    exact .key hdigits (by decide) (by decide)
  exact ⟨hkey, ((parse_exact "m.0.007..x" "m.0").1 7 ".x").2 hkey⟩

end LayerKey

end FlatWeights
