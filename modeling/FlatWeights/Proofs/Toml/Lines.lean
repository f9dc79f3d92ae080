import FlatWeights.Toml.Reader
import FlatWeights.Config.Writer
import FlatWeights.Proofs.Toml.Strings

/-!
A document that is written line by line is read line by line. A line is read whatever follows it,
so lines are read one after the other; a value is read up to the end of its line.
-/

set_option autoImplicit false

namespace FlatWeights.Toml

open Text (Parser)

variable {rest : List Char} {c : Char}

theorem skipBlanks_cons (h : isBlank c = false) : skipBlanks (c :: rest) = c :: rest := by
  rw [skipBlanks, List.dropWhile_cons_of_neg (by simp [h])]

/-- What is written for a key is not taken for anything else that begins a line. -/
theorem head_ne_of_key (h : isBareKeyChar c = true ∨ c = '"' ∨ c = '\'') :
    isBlank c = false ∧ c ∉ ['[', '#', '\n', '\r'] := by
  rcases h with hbare | rfl | rfl
  · refine ⟨?_, fun hmem => ?_⟩
    · rw [Bool.eq_false_iff]
      intro hblank
      simp only [isBlank, Bool.or_eq_true, beq_iff_eq] at hblank
      rcases hblank with rfl | rfl <;> exact absurd hbare (by decide)
    · simp only [List.mem_cons, List.not_mem_nil, or_false] at hmem
      rcases hmem with rfl | rfl | rfl | rfl <;> exact absurd hbare (by decide)
  · decide
  · decide

/-- A key written starts with no blank. -/
theorem skipBlanks_writeKey (k rest : List Char) :
    skipBlanks (writeKey k ++ rest) = writeKey k ++ rest := by
  obtain ⟨c, later, hwritten, hc⟩ := exists_head_writeKey k
  rw [hwritten, List.cons_append, skipBlanks_cons (head_ne_of_key hc).1]

/-- A key written is read back up to the equals sign. -/
theorem key_writeKey (k rest : List Char) :
    key (writeKey k ++ ' ' :: '=' :: rest) = some ([String.ofList k], '=' :: rest) := by
  have hpart : keyPart (writeKey k ++ ' ' :: '=' :: rest) =
      some (String.ofList k, ' ' :: '=' :: rest) := by
    apply keyPart_writeKey
    rintro c ⟨⟩
    decide
  rw [key, deepest, keyParts, skipBlanks_writeKey, hpart]
  rfl

/-- A text is read as a value, up to the end of its line. -/
def ReadsAs (written : List Char) (v : Value) : Prop :=
  ∀ rest, value (skipBlanks (' ' :: (written ++ '\n' :: rest))) = some (v, '\n' :: rest)

/-- A string written is read back. -/
theorem readsAs_writeString (text : List Char) :
    ReadsAs (writeString text) (.string (String.ofList text)) := by
  intro rest
  obtain ⟨c, later, hwritten, hc⟩ := exists_head_writeString text
  have hread : stringValue (writeString text ++ '\n' :: rest) = some (text, '\n' :: rest) :=
    stringValue_writeString text (by simp) (by simp)
  have hblank : isBlank c = false := (head_ne_of_key (.inr hc)).1
  change value (skipBlanks (writeString text ++ '\n' :: rest)) = _
  rw [hwritten, List.cons_append] at hread ⊢
  rw [skipBlanks_cons hblank, value, valueWithin.eq_def]
  simp only
  rw [if_pos hc, hread]
  rfl

/-- A line is read as a statement, or as none, whatever follows it. -/
structure LineOf (written : List Char) (statement : Option Statement) : Prop where
  ne_nil : written ≠ []
  read : ∀ rest, line (written ++ rest) = some (statement, rest)

/-- A line with a key and a value is an assignment. -/
theorem lineOf_assign {written : List Char} {v : Value} (h : ReadsAs written v) (k : List Char) :
    LineOf (Config.line (writeKey k) written) (some (.assign [] (String.ofList k) v)) := by
  obtain ⟨c, later, hwritten, hc⟩ := exists_head_writeKey k
  obtain ⟨-, hfirst⟩ := head_ne_of_key hc
  simp only [List.mem_cons, List.not_mem_nil, or_false, not_or] at hfirst
  refine ⟨by simp [Config.line], fun rest => ?_⟩
  have hassign : assignment value (writeKey k ++ ' ' :: '=' :: ' ' :: (written ++ '\n' :: rest)) =
      some (([], String.ofList k, v), '\n' :: rest) := by
    rw [assignment, key_writeKey]
    change Option.bind (value (skipBlanks (' ' :: (written ++ '\n' :: rest)))) _ = _
    rw [h rest]
    rfl
  have hline : Config.line (writeKey k) written ++ rest =
      writeKey k ++ ' ' :: '=' :: ' ' :: (written ++ '\n' :: rest) := by
    simp [Config.line]
  rw [hline, line, skipBlanks_writeKey]
  -- the first character of a key is not one of a heading, a comment or an empty line
  rw [hwritten, List.cons_append] at hassign ⊢
  split
  · simp_all
  · simp_all
  · simp_all
  · rename_i heq
    obtain ⟨rfl, rfl⟩ := List.cons.inj heq
    rw [if_neg (by simp [hfirst]), hassign]
    rfl

/-- An empty line. -/
theorem lineOf_empty : LineOf ['\n'] none := ⟨by simp, fun _ => rfl⟩

/-- Lines are read back one by one. -/
theorem many_line {lines : List (List Char × Option Statement)}
    (h : ∀ l ∈ lines, LineOf l.1 l.2) :
    Parser.many line (lines.flatMap (·.1)) = (lines.map (·.2), []) := by
  induction lines with
  | nil =>
    rw [Parser.many.eq_def]
    rfl
  | cons l lines ih =>
    obtain ⟨hne, hread⟩ := h l (by simp)
    rw [Parser.many.eq_def, List.flatMap_cons, hread]
    -- reading goes on only after a line that takes at least one character
    have hlt : (lines.flatMap (·.1)).length < (l.1 ++ lines.flatMap (·.1)).length := by
      have hpos := List.length_pos_iff.2 hne
      rw [List.length_append]
      omega
    simp only
    rw [if_pos hlt, ih fun l hl => h l (by simp [hl])]
    rfl

theorem readsAs_true : ReadsAs "true".toList (.boolean true) := fun _ => rfl
theorem readsAs_false : ReadsAs "false".toList (.boolean false) := fun _ => rfl

end FlatWeights.Toml
