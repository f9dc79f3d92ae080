import FlatWeights.Toml.Text
import FlatWeights.Toml.Printer
import Mathlib.Data.List.TakeDrop

/-!
A string is read back from what is written for it, whatever is in it. A text is written in one of
four forms; each is read back character by character, and what follows the string may not begin
with the quote that closes it. In the forms of several lines a run of quotes belongs to the text as
long as no third one follows, and the writer escapes exactly that third one. Main statements:
`stringValue_writeString`, and for keys, which have one more form, `keyPart_writeKey`.
-/

set_option autoImplicit false

namespace FlatWeights.Toml

open Text (Parser)

variable {text rest : List Char} {c : Char}

theorem isTextChar_of_not_isHardControl (h : isHardControl c = false) (hc : c ≠ '\n') :
    isTextChar c = true := by
  simp only [isHardControl, isTextChar, Bool.and_eq_false_iff, Bool.or_eq_false_iff] at *
  simp_all [Char.lt_def, Char.le_def]
  grind

theorem toNat_lt_of_isHardControl (h : isHardControl c = true) : c.toNat < 128 := by
  simp only [isHardControl, Bool.and_eq_true, Bool.or_eq_true, decide_eq_true_eq, beq_iff_eq] at h
  rcases h.1.1 with hlt | rfl
  · have hlt : c.toNat < ' '.toNat := hlt
    exact Nat.lt_trans hlt (by decide)
  · decide

/-- Each hexadecimal digit is read back. -/
theorem hexDigit?_upperHexDigit : ∀ n < 16, Text.hexDigit? (escape.upperHexDigit n) = some n := by
  decide

/-- The escape of a control character by its number stands for it. -/
theorem hexChar?_upperHexDigit (h : c.toNat < 128) :
    Text.hexChar? ['0', '0', escape.upperHexDigit (c.toNat / 16),
      escape.upperHexDigit (c.toNat % 16)] = some c := by
  have hhigh := hexDigit?_upperHexDigit (c.toNat / 16) (by omega)
  have hlow := hexDigit?_upperHexDigit (c.toNat % 16) (by omega)
  have hzero : Text.hexDigit? '0' = some 0 := by decide
  have hnumber : Text.number? 16 ['0', '0', escape.upperHexDigit (c.toNat / 16),
      escape.upperHexDigit (c.toNat % 16)] = some c.toNat := by
    have hlt : c.toNat / 16 < 16 := by omega
    have hlt' : c.toNat % 16 < 16 := by omega
    simp only [Text.number?, List.foldlM_cons, List.foldlM_nil, hzero, hhigh, hlow, hlt, hlt',
      Option.bind_some, Option.bind_eq_bind, if_true, Nat.reduceLT, Option.pure_def]
    congr 1
    omega
  have hvalid : c.toNat.isValidChar := c.valid
  rw [Text.hexChar?, hnumber, Option.bind_some, Text.charOf?, if_pos hvalid, Char.ofNat_toNat]

/-- A character stands as it is, or behind a backslash by a letter or by its number. -/
theorem escape_cases (c : Char) :
    (escape c = [c] ∧ isTextChar c = true ∧ c ∉ ['\t', '"', '\\']) ∨
      (∃ e, escape c = ['\\', e] ∧ escaped? e = some c) ∨
      ∃ w x y z, escape c = ['\\', 'u', w, x, y, z] ∧ Text.hexChar? [w, x, y, z] = some c := by
  fun_cases escape c with
  | case1 => exact .inr (.inl ⟨'b', rfl, rfl⟩)
  | case2 => exact .inr (.inl ⟨'t', rfl, rfl⟩)
  | case3 => exact .inr (.inl ⟨'n', rfl, rfl⟩)
  | case4 => exact .inr (.inl ⟨'f', rfl, rfl⟩)
  | case5 => exact .inr (.inl ⟨'r', rfl, rfl⟩)
  | case6 => exact .inr (.inl ⟨'"', rfl, rfl⟩)
  | case7 => exact .inr (.inl ⟨'\\', rfl, rfl⟩)
  | case8 c =>
    rename_i hcontrol
    exact .inr (.inr ⟨_, _, _, _, rfl, hexChar?_upperHexDigit (toNat_lt_of_isHardControl hcontrol)⟩)
  | case9 c =>
    rename_i ht hn hf hr hq hs hcontrol
    refine .inl ⟨rfl, isTextChar_of_not_isHardControl (Bool.eq_false_iff.2 hcontrol) hn, ?_⟩
    simp_all

theorem escaped?_ne_u {e : Char} (h : escaped? e = some c) : e ≠ 'u' ∧ e ≠ 'U' := by
  constructor <;> rintro rfl <;> exact absurd h (by simp [escaped?])

/-- A character that was written with escapes is read back. -/
theorem basicString_escape (c : Char) (rest : List Char) :
    basicString (escape c ++ rest) = (basicString rest).map (push c) := by
  rcases escape_cases c with ⟨hsame, hchar, hplain⟩ | ⟨e, hshort, he⟩ | ⟨w, x, y, z, hlong, hx⟩
  · simp only [List.mem_cons, List.not_mem_nil, or_false, not_or] at hplain
    rw [hsame, List.singleton_append, basicString.eq_def]
    split <;> simp_all
  · obtain ⟨hu, hU⟩ := escaped?_ne_u he
    rw [hshort]
    simp [basicString, he, hu, hU]
  · rw [hlong]
    simp [basicString, hx]

/-- A text written with escapes is read back up to the closing quote. -/
theorem basicString_flatMap_escape (text rest : List Char) :
    basicString (text.flatMap escape ++ '"' :: rest) = some (text, rest) := by
  induction text with
  | nil => rfl
  | cons c text ih =>
    rw [List.flatMap_cons, List.append_assoc, basicString_escape, ih]
    rfl

/-- A text without an apostrophe is read as it stands. -/
theorem literalString_append (h : ∀ c ∈ text, isTextChar c = true ∧ c ≠ '\'') (rest : List Char) :
    literalString (text ++ '\'' :: rest) = some (text, rest) := by
  induction text with
  | nil => rfl
  | cons c text ih =>
    obtain ⟨hchar, hquote⟩ := h c (by simp)
    have hlater := ih fun c hc => h c (by simp [hc])
    rw [List.cons_append, literalString.eq_def]
    split <;> simp_all [push]

/-! ## Several lines -/

/-- An escape is read as the character it stands for. -/
theorem basicLines_escape (c : Char) (rest : List Char) :
    basicLines .open (escape c ++ rest) = (basicLines .open rest).map (push c) := by
  rcases escape_cases c with ⟨hsame, hchar, hplain⟩ | ⟨e, hshort, he⟩ | ⟨w, x, y, z, hlong, hx⟩
  · simp only [List.mem_cons, List.not_mem_nil, or_false, not_or] at hplain
    rw [hsame, List.singleton_append, basicLines.eq_def]
    split <;> simp_all [isTextChar]
  · obtain ⟨hu, hU⟩ := escaped?_ne_u he
    rw [hshort, basicLines.eq_def]
    simp [he, hu, hU]
  · rw [hlong, basicLines.eq_def]
    simp [hx]

/-- A quote that no two others follow belongs to the text. -/
theorem basicLines_quote (h : ¬ ['"', '"'] <+: rest) :
    basicLines .open ('"' :: rest) = (basicLines .open rest).map (push '"') := by
  rw [basicLines.eq_def]
  split
  case h_6 heq =>
    obtain ⟨rfl, rfl⟩ := List.cons.inj heq
    rw [if_neg (by decide), if_pos rfl]
    split
    · exact absurd (by simp) h
    · rfl
  all_goals simp_all

theorem basicLines_close (rest : List Char) :
    basicLines .open ('"' :: '"' :: '"' :: rest) = some (closing '"' rest) := rfl

/-- Quotes that follow the closing ones belong to the text: none here, -/
theorem closing_of_head (q : Char) (h : rest.head? ≠ some q) : closing q rest = ([], rest) := by
  rw [closing.eq_def]
  split <;> simp_all

/-- one here, -/
theorem closing_one (q : Char) (h : rest.head? ≠ some q) : closing q (q :: rest) = ([q], rest) := by
  rw [closing.eq_def]
  split <;> simp_all

/-- two here, the most there can be. -/
theorem closing_two (q : Char) : closing q (q :: q :: rest) = ([q, q], rest) := by
  simp [closing]

/-- What is written for a character does not begin like a quote or like the end of a line. -/
theorem head_escape_append (c : Char) (rest : List Char) {x : Char} (hx : x ∈ ['"', '\n', '\r']) :
    (escape c ++ rest).head? ≠ some x := by
  rcases escape_cases c with ⟨hsame, hchar, hplain⟩ | ⟨e, hshort, -⟩ | ⟨v, w, y, z, hlong, -⟩
  · rw [hsame, List.singleton_append, List.head?_cons]
    rintro ⟨⟩
    simp only [List.mem_cons, List.not_mem_nil, or_false] at hx
    rcases hx with rfl | rfl | rfl
    · exact hplain (by simp)
    · exact absurd hchar (by decide)
    · exact absurd hchar (by decide)
  all_goals
    simp_all
    rintro rfl
    simp at hx

/-- Only a quote that is not the third of a run is written as a quote. -/
theorem head_escapeLines_append {run : Nat} (hne : text ≠ [])
    (h : (escapeLines run text ++ rest).head? = some '"') :
    ∃ later, text = '"' :: later ∧ run ≠ 2 := by
  fun_cases escapeLines run text with
  | case1 => exact absurd rfl hne
  | case2 later => exact absurd h (by simp [escapeLines])
  | case3 later hrun => exact absurd h (by simp [escapeLines, hrun])
  | case4 later hrun => exact ⟨later, rfl, hrun⟩
  | case5 c later hend hquote =>
    rw [escapeLines, List.append_assoc] at h
    · exact absurd h (head_escape_append c _ (by simp))
    · exact hend
    · exact hquote

/-- **A string of several lines is read back**, whatever is in it. What is in front of it has no
more than two quotes at its end, so that the third of a run is the one with an escape. -/
theorem basicLines_escapeLines (hrest : rest.head? ≠ some '"') {run : Nat} (hrun : run ≤ 2) :
    basicLines .open (escapeLines run text ++ '"' :: '"' :: '"' :: rest) = some (text, rest) := by
  fun_induction escapeLines run text with
  -- only a quote that is written as it is can be taken for the end
  | case1 => rw [List.nil_append, basicLines_close, closing_of_head '"' hrest]
  | case2 run later ih =>
    change (basicLines .open (escapeLines 0 later ++ _)).map (push '\n') = _
    rw [ih (by omega)]
    rfl
  | case3 later ih =>
    change (basicLines .open (escapeLines 0 later ++ _)).map (push '"') = _
    rw [ih (by omega)]
    rfl
  | case4 run later hne ih =>
    rw [List.cons_append]
    by_cases hclose : ['"', '"'] <+: escapeLines (run + 1) later ++ '"' :: '"' :: '"' :: rest
    · -- the text ends here, with one or two quotes directly before the three that close it
      obtain ⟨tail, htail⟩ := hclose
      by_cases hlater : later = []
      · subst hlater
        exact congrArg some (closing_one '"' hrest)
      have hhead : (escapeLines (run + 1) later ++ '"' :: '"' :: '"' :: rest).head? = some '"' := by
        rw [← htail]
        rfl
      obtain ⟨later, rfl, hone⟩ := head_escapeLines_append hlater hhead
      rw [escapeLines, if_neg hone] at htail ⊢
      obtain rfl : later = [] := by
        -- a third quote would stand behind a backslash
        apply Classical.byContradiction
        intro hlater
        have hnext : '"' :: tail = escapeLines (run + 1 + 1) later ++ '"' :: '"' :: '"' :: rest :=
          (List.cons.inj htail).2
        have hhead : (escapeLines (run + 1 + 1) later ++ '"' :: '"' :: '"' :: rest).head? =
            some '"' := by
          rw [← hnext]
          rfl
        obtain ⟨-, -, htwo⟩ := head_escapeLines_append hlater hhead
        omega
      exact congrArg some (closing_two '"')
    · rw [basicLines_quote hclose, ih (by omega)]
      rfl
  | case5 run c later hend hquote ih =>
    rw [List.append_assoc, basicLines_escape, ih (by omega)]
    rfl

/-! ## Runs of quotes -/

theorem le_longestRun_go (q : Char) (current : Nat) (text : List Char) :
    current ≤ longestRun.go q current text := by
  induction text generalizing current with
  | nil => exact Nat.le_refl current
  | cons c text ih =>
    rw [longestRun.go]
    split
    · exact Nat.le_trans (Nat.le_succ current) (ih (current + 1))
    · exact Nat.le_max_left ..

theorem longestRun_go_mono (q : Char) {current current' : Nat} (h : current ≤ current')
    (text : List Char) : longestRun.go q current text ≤ longestRun.go q current' text := by
  induction text generalizing current current' with
  | nil => exact h
  | cons c text ih =>
    rw [longestRun.go, longestRun.go]
    split
    · exact ih (Nat.succ_le_succ h)
    · omega

/-- One more character does not shorten the longest run. -/
theorem longestRun_le_cons (q c : Char) (text : List Char) :
    longestRun q text ≤ longestRun q (c :: text) := by
  rw [longestRun, longestRun, longestRun.go]
  split
  · exact longestRun_go_mono q (Nat.zero_le 1) text
  · exact Nat.le_max_right ..

/-- Three quotes in a row are a run of three. -/
theorem three_le_longestRun (q : Char) (text : List Char) :
    3 ≤ longestRun q (q :: q :: q :: text) := by
  simp only [longestRun, longestRun.go, if_true]
  exact le_longestRun_go q 3 text

/-! ## Literal -/

theorem literalLines_cons (hchar : isTextChar c = true)
    (h : c = '\'' → ¬ ['\'', '\''] <+: rest) :
    literalLines (c :: rest) = (literalLines rest).map (push c) := by
  rw [literalLines.eq_def]
  split
  case h_5 heq =>
    obtain ⟨rfl, rfl⟩ := List.cons.inj heq
    rw [if_pos hchar]
  all_goals simp_all [isTextChar]

/-- A text without three apostrophes in a row is read as it stands. -/
theorem literalLines_append (hrest : rest.head? ≠ some '\'')
    (hchars : ∀ c ∈ text, isHardControl c = false) (hrun : longestRun '\'' text ≤ 2) :
    literalLines (text ++ '\'' :: '\'' :: '\'' :: rest) = some (text, rest) := by
  induction text with
  | nil => exact congrArg some (closing_of_head '\'' hrest)
  | cons c text ih =>
    have hlater := ih (fun c hc => hchars c (by simp [hc]))
      (Nat.le_trans (longestRun_le_cons '\'' c text) hrun)
    by_cases hend : c = '\n'
    · subst hend
      change (literalLines (text ++ _)).map (push '\n') = _
      rw [hlater]
      rfl
    have hchar := isTextChar_of_not_isHardControl (hchars c (by simp)) hend
    by_cases hclose : c = '\'' ∧ ['\'', '\''] <+: text ++ '\'' :: '\'' :: '\'' :: rest
    · -- the text ends here, with one or two quotes directly before the three that close it
      obtain ⟨rfl, tail, htail⟩ := hclose
      cases text with
      | nil => exact congrArg some (closing_one '\'' hrest)
      | cons x later =>
        simp only [List.cons_append, List.nil_append, List.cons.injEq] at htail
        obtain ⟨rfl, htail⟩ := htail
        cases later with
        | nil => exact congrArg some (closing_two '\'')
        | cons y later =>
          obtain ⟨rfl, -⟩ := List.cons.inj htail
          -- the text has no three quotes in a row
          exact absurd (three_le_longestRun '\'' later) (by omega)
    · rw [List.cons_append, literalLines_cons hchar fun hc hprefix => hclose ⟨hc, hprefix⟩, hlater]
      rfl

/-! ## Strings -/

/-- The body of a string of several lines is not taken for the line end before it. -/
theorem skipFirstLineEnd_leadingLineEnd {body : List Char}
    (h : '\n' ∉ text → body.head? ≠ some '\n' ∧ body.head? ≠ some '\r') :
    skipFirstLineEnd (leadingLineEnd text ++ body) = body := by
  rw [leadingLineEnd]
  split
  · rfl
  · rename_i hno
    obtain ⟨hend, hreturn⟩ := h (by simpa using hno)
    rw [List.nil_append, skipFirstLineEnd.eq_def]
    split <;> simp_all

theorem stringValue_quote {body : List Char} (h : ¬ ['"', '"'] <+: body) :
    stringValue ('"' :: body) = basicString body := by
  rw [stringValue.eq_def]
  split
  case h_1 heq =>
    obtain ⟨-, rfl⟩ := List.cons.inj heq
    exact absurd (by simp) h
  all_goals simp_all

theorem stringValue_apostrophe {body : List Char} (h : ¬ ['\'', '\''] <+: body) :
    stringValue ('\'' :: body) = literalString body := by
  rw [stringValue.eq_def]
  split
  case h_3 heq =>
    obtain ⟨-, rfl⟩ := List.cons.inj heq
    exact absurd (by simp) h
  all_goals simp_all

/-- Two quotes and then no third are the whole of a string. -/
theorem not_prefix_of_head (q : Char) (h : rest.head? ≠ some q) : ¬ [q, q] <+: q :: rest := by
  rintro ⟨tail, htail⟩
  simp only [List.cons_append, List.nil_append, List.cons.injEq, true_and] at htail
  exact h (by rw [← htail]; rfl)

/-- The basic form of any text is read back. -/
theorem stringValue_basic (text : List Char) (hrest : rest.head? ≠ some '"') :
    stringValue (TextForm.basic.write text ++ rest) = some (text, rest) := by
  have hwritten : TextForm.basic.write text ++ rest =
      '"' :: (text.flatMap escape ++ '"' :: rest) := by
    simp [TextForm.write]
  rw [hwritten, stringValue_quote, basicString_flatMap_escape]
  cases text with
  | nil => exact not_prefix_of_head '"' hrest
  | cons c text =>
    rintro ⟨tail, htail⟩
    rw [List.flatMap_cons, List.append_assoc] at htail
    exact head_escape_append c _ (x := '"') (by simp) (by rw [← htail]; rfl)

theorem isTextChar_of_fits_literal (h : TextForm.literal.fits text = true) :
    ∀ c ∈ text, isTextChar c = true ∧ c ≠ '\'' := by
  intro c hc
  simp only [TextForm.fits, Bool.not_eq_true', List.any_eq_false, Bool.or_eq_true, not_or,
    beq_iff_eq, Bool.not_eq_true] at h
  obtain ⟨⟨hcontrol, hquote⟩, hend⟩ := h c hc
  exact ⟨isTextChar_of_not_isHardControl hcontrol hend, hquote⟩

/-- The literal form of a text that fits into it is read back. -/
theorem stringValue_literal (h : TextForm.literal.fits text = true)
    (hrest : rest.head? ≠ some '\'') :
    stringValue (TextForm.literal.write text ++ rest) = some (text, rest) := by
  have hchars := isTextChar_of_fits_literal h
  have hwritten : TextForm.literal.write text ++ rest = '\'' :: (text ++ '\'' :: rest) := by
    simp [TextForm.write]
  rw [hwritten, stringValue_apostrophe, literalString_append hchars]
  cases text with
  | nil => exact not_prefix_of_head '\'' hrest
  | cons c text =>
    rintro ⟨tail, htail⟩
    exact (hchars c (by simp)).2 (List.cons.inj htail).1.symm

/-- No line end stands at the front of a text that is written with escapes, unless it is one of the
text. -/
theorem head_escapeLines_ne (h : '\n' ∉ text) (rest : List Char) :
    (escapeLines 0 text ++ '"' :: rest).head? ≠ some '\n' ∧
      (escapeLines 0 text ++ '"' :: rest).head? ≠ some '\r' := by
  fun_cases escapeLines 0 text with
  | case1 => simp
  | case2 => exact absurd (by simp) h
  | case3 later hrun => exact absurd hrun (by decide)
  | case4 => simp
  | case5 c later hend hquote =>
    rw [List.append_assoc]
    exact ⟨head_escape_append c _ (by simp), head_escape_append c _ (by simp)⟩

/-- A text over several lines with escapes is read back. -/
theorem stringValue_basicLines (text : List Char) (hrest : rest.head? ≠ some '"') :
    stringValue (TextForm.basicLines.write text ++ rest) = some (text, rest) := by
  have hwritten : TextForm.basicLines.write text ++ rest = '"' :: '"' :: '"' ::
      (leadingLineEnd text ++ (escapeLines 0 text ++ '"' :: '"' :: '"' :: rest)) := by
    simp [TextForm.write]
  rw [hwritten]
  change basicLines .open (skipFirstLineEnd _) = _
  rw [skipFirstLineEnd_leadingLineEnd fun h => head_escapeLines_ne h _,
    basicLines_escapeLines hrest (Nat.zero_le 2)]

/-- A text over several lines that fits is read back as it stands. -/
theorem stringValue_literalLines (h : TextForm.literalLines.fits text = true)
    (hrest : rest.head? ≠ some '\'') :
    stringValue (TextForm.literalLines.write text ++ rest) = some (text, rest) := by
  simp only [TextForm.fits, Bool.and_eq_true, Bool.not_eq_true', List.any_eq_false,
    Bool.not_eq_true, decide_eq_true_eq] at h
  have hwritten : TextForm.literalLines.write text ++ rest = '\'' :: '\'' :: '\'' ::
      (leadingLineEnd text ++ (text ++ '\'' :: '\'' :: '\'' :: rest)) := by
    simp [TextForm.write]
  rw [hwritten]
  change literalLines (skipFirstLineEnd _) = _
  rw [skipFirstLineEnd_leadingLineEnd, literalLines_append hrest h.1 h.2]
  -- a line end in front of the text would be skipped, so one more is written before it
  intro hend
  cases text with
  | nil => simp
  | cons c text =>
    have hcontrol := h.1 c (by simp)
    refine ⟨fun hc => hend (by simp_all), fun hc => ?_⟩
    obtain rfl : c = '\r' := Option.some.inj hc
    exact absurd hcontrol (by decide)

/-- The form that is chosen for a text is one that it fits into, or knows escapes. -/
theorem formOf_cases (text : List Char) :
    (formOf text).fits text = true ∨ formOf text = .basic ∨ formOf text = .basicLines := by
  rw [formOf]
  cases hfound : TextForm.all.find? (·.fits text) with
  | none =>
    right
    simp only [Option.getD_none]
    split <;> simp
  | some form =>
    left
    exact List.find?_some hfound

/-- **A string value is read back from what is written for it**, whatever its text. -/
theorem stringValue_writeString (text : List Char) (hquote : rest.head? ≠ some '"')
    (happos : rest.head? ≠ some '\'') :
    stringValue (writeString text ++ rest) = some (text, rest) := by
  rw [writeString]
  have hcases := formOf_cases text
  cases hform : formOf text with
  | basic => exact stringValue_basic text hquote
  | basicLines => exact stringValue_basicLines text hquote
  | literal =>
    rw [hform] at hcases
    exact stringValue_literal (by simpa using hcases) happos
  | literalLines =>
    rw [hform] at hcases
    exact stringValue_literalLines (by simpa using hcases) happos

/-! ## Keys -/

/-- A text is cut where its characters end. -/
theorem span_append {p : Char → Bool} (h : ∀ c ∈ text, p c = true)
    (hrest : ∀ c, rest.head? = some c → p c = false) : (text ++ rest).span p = (text, rest) := by
  rw [List.span_eq_takeWhile_dropWhile, List.takeWhile_append_of_pos h,
    List.dropWhile_append_of_pos h]
  cases rest with
  | nil => simp
  | cons c rest => simp [hrest c rfl]

/-- A key is written bare or in quotes of one line. -/
theorem exists_form_of_key (key : List Char) :
    writeKey key = key ∧ key ≠ [] ∧ (∀ c ∈ key, isBareKeyChar c = true) ∨
      writeKey key = TextForm.basic.write key ∨
      writeKey key = TextForm.literal.write key ∧ TextForm.literal.fits key = true := by
  rw [writeKey]
  split
  · rename_i h
    exact .inl ⟨rfl, h.1, by simpa using h.2⟩
  · right
    cases hfound : TextForm.oneLine.find? (·.fits key) with
    | none => exact .inl rfl
    | some form =>
      have hfits := List.find?_some hfound
      have hmem := List.mem_of_find?_eq_some hfound
      simp only [TextForm.oneLine, List.mem_cons, List.not_mem_nil, or_false] at hmem
      rcases hmem with rfl | rfl
      · exact .inl rfl
      · exact .inr ⟨rfl, by simpa using hfits⟩

/-- **A key is read back from what is written for it**, whatever its text. -/
theorem keyPart_writeKey (key : List Char)
    (hrest : ∀ c, rest.head? = some c → isBareKeyChar c = false) :
    keyPart (writeKey key ++ rest) = some (String.ofList key, rest) := by
  rcases exists_form_of_key key with ⟨hbare, hne, hchars⟩ | hbasic | ⟨hliteral, hfits⟩
  · obtain ⟨c, later, rfl⟩ := List.exists_cons_of_ne_nil hne
    have hfirst := hchars c (by simp)
    have hspan := span_append hchars hrest
    rw [hbare, keyPart.eq_def]
    split
    · rename_i heq
      obtain ⟨rfl, -⟩ := List.cons.inj heq
      exact absurd hfirst (by decide)
    · rename_i heq
      obtain ⟨rfl, -⟩ := List.cons.inj heq
      exact absurd hfirst (by decide)
    · rw [hspan]
  · have hwritten : TextForm.basic.write key ++ rest =
        '"' :: (key.flatMap escape ++ '"' :: rest) := by
      simp [TextForm.write]
    rw [hbasic, hwritten, keyPart, basicString_flatMap_escape]
    rfl
  · have hwritten : TextForm.literal.write key ++ rest = '\'' :: (key ++ '\'' :: rest) := by
      simp [TextForm.write]
    rw [hliteral, hwritten, keyPart, literalString_append (isTextChar_of_fits_literal hfits)]
    rfl

/-- What is written for a key begins with one of its characters or with a quote. -/
theorem exists_head_writeKey (key : List Char) : ∃ c later, writeKey key = c :: later ∧
    (isBareKeyChar c = true ∨ c = '"' ∨ c = '\'') := by
  rcases exists_form_of_key key with ⟨hbare, hne, hchars⟩ | hbasic | ⟨hliteral, -⟩
  · obtain ⟨c, later, rfl⟩ := List.exists_cons_of_ne_nil hne
    exact ⟨c, later, hbare, .inl (hchars c (by simp))⟩
  · exact ⟨'"', _, hbasic, .inr (.inl rfl)⟩
  · exact ⟨'\'', _, hliteral, .inr (.inr rfl)⟩

/-- What is written for a string begins with a quote. -/
theorem exists_head_writeString (text : List Char) : ∃ c later, writeString text = c :: later ∧
    (c = '"' ∨ c = '\'') := by
  rw [writeString]
  cases formOf text
  · exact ⟨'"', _, rfl, .inl rfl⟩
  · exact ⟨'\'', _, rfl, .inr rfl⟩
  · exact ⟨'"', _, rfl, .inl rfl⟩
  · exact ⟨'\'', _, rfl, .inr rfl⟩

end FlatWeights.Toml
