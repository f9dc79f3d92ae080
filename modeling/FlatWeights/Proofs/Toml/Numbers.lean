import FlatWeights.Proofs.Toml.Lines

/-!
A number is read back from its digits. Digits without a point, a colon, a sign or a letter among
them can only be an integer: they are no date, no time and no number of double precision.
-/

set_option autoImplicit false

namespace FlatWeights.Toml

open Text (Parser)

variable {rest : List Char} {c : Char}

/-- A number that is not zero does not begin with the digit 0. -/
theorem head_toDigits {n : Nat} (h : (Nat.toDigits 10 n).head? = some '0') : n = 0 := by
  induction n using Nat.strongRecOn with
  | _ n ih =>
    rw [Nat.toDigits_eq_if (by decide)] at h
    split at h
    · rename_i hlt
      have hdigit : ∀ n < 10, Nat.digitChar n = '0' → n = 0 := by decide
      exact hdigit n hlt (Option.some.inj h)
    · rename_i hle
      -- with its last digit taken away the number still begins with the digit 0
      have hfirst : (Nat.toDigits 10 (n / 10)).head? = some '0' := by
        rw [List.head?_append, Option.or_eq_some_iff] at h
        exact h.resolve_right fun h => Nat.toDigits_ne_nil (List.head?_eq_none_iff.1 h.1)
      have hzero := ih (n / 10) (by omega) hfirst
      omega

section Digits

variable {digits : List Char} (hdigits : ∀ c ∈ digits, c.isDigit = true)

include hdigits

/-- What is no digit is not among digits. -/
theorem not_mem_digits {x : Char} (hx : x.isDigit = false) : x ∉ digits := fun hmem =>
  absurd (hdigits x hmem) (by simp [hx])

theorem ne_of_letter {word : List Char} {x : Char} (hx : x.isDigit = false) (hmem : x ∈ word) :
    digits ≠ word := by
  rintro rfl
  exact not_mem_digits hdigits hx hmem

/-- Digits alone have no underscore to drop. -/
theorem ungrouped?_digits (hne : digits ≠ []) : ungrouped? Char.isDigit digits = some digits := by
  fun_induction ungrouped? Char.isDigit digits with
  | case1 => exact absurd rfl hne
  | case2 d hd => rfl
  | case3 d hd => exact absurd (hdigits d (by simp)) hd
  | case4 d rest hd ih => exact absurd (hdigits '_' (by simp)) (by decide)
  | case5 d rest hd => exact absurd (hdigits d (by simp)) hd
  | case6 d rest hone hunder hd ih =>
    have hrest : rest ≠ [] := by
      rintro rfl
      exact hone rfl
    rw [ih (fun c hc => hdigits c (by simp [hc])) hrest]
    rfl
  | case7 d rest hone hunder hd => exact absurd (hdigits d (by simp)) hd

omit hdigits in
/-- What is left after a number of so many digits is the end of the text. -/
theorem suffix_of_fixedNumber {text rest : List Char} {width start n : Nat}
    (h : fixedNumber.go start width text = some (n, rest)) : rest <:+ text := by
  fun_induction fixedNumber.go start width text with
  | case1 =>
    obtain ⟨-, rfl⟩ := Prod.mk.inj (Option.some.inj h)
    exact List.suffix_refl _
  | case2 => exact absurd h (by simp)
  | case3 start width c text hc ih => exact (ih h).trans (List.suffix_cons c text)
  | case4 => exact absurd h (by simp)

omit hdigits in
theorem afterChar?_eq_none {x : Char} {text : List Char} (h : x ∉ text) :
    afterChar? x text = none := by
  cases text with
  | nil => rfl
  | cons c text =>
    rw [afterChar?, if_neg]
    rintro rfl
    simp at h

/-- Digits alone are no date. -/
theorem date_digits : date digits = none := by
  rw [date]
  cases hyear : fixedNumber 4 digits with
  | none => rfl
  | some read =>
    have hno : '-' ∉ read.2 := fun hmem => not_mem_digits hdigits (by decide)
      ((suffix_of_fixedNumber hyear).subset hmem)
    simp [afterChar?_eq_none hno]

/-- They are no time of day. -/
theorem time_digits : time digits = none := by
  rw [time]
  cases hhour : fixedNumber 2 digits with
  | none => rfl
  | some read =>
    have hno : ':' ∉ read.2 := fun hmem => not_mem_digits hdigits (by decide)
      ((suffix_of_fixedNumber hhour).subset hmem)
    simp [afterChar?_eq_none hno]

theorem datetime?_digits : datetime? digits = none := by
  rw [datetime?, date_digits hdigits, time_digits hdigits]
  rfl

theorem cutAt_digits {isCut : Char → Bool} (h : ∀ c, c.isDigit = true → isCut c = false) :
    Text.cutAt isCut digits = (digits, none) := by
  have hspan : (digits ++ []).span (fun c => !isCut c) = (digits, []) :=
    span_append (fun c hc => by simp [h c (hdigits c hc)]) (by simp)
  rw [List.append_nil] at hspan
  rw [Text.cutAt, hspan]

/-- They have no sign. -/
theorem signed_digits : Text.signed digits = (false, digits) := by
  rw [Text.signed.eq_def]
  split
  · exact absurd (hdigits '+' (by simp)) (by decide)
  · exact absurd (hdigits '-' (by simp)) (by decide)
  · rfl

/-- Digits alone are no number of double precision. -/
theorem isFloat_digits : isFloat digits = false := by
  have hinf : digits ≠ "inf".toList := ne_of_letter hdigits (x := 'n') (by decide) (by decide)
  have hnan : digits ≠ "nan".toList := ne_of_letter hdigits (x := 'n') (by decide) (by decide)
  have hexponent : Text.cutAt (fun c => c == 'e' || c == 'E') digits = (digits, none) := by
    refine cutAt_digits hdigits fun c hc => Bool.eq_false_iff.2 fun he => ?_
    simp only [Bool.or_eq_true, beq_iff_eq] at he
    rcases he with rfl | rfl <;> exact absurd hc (by decide)
  have hpoint : Text.cutAt (· == '.') digits = (digits, none) := by
    refine cutAt_digits hdigits fun c hc => Bool.eq_false_iff.2 fun he => ?_
    obtain rfl := eq_of_beq he
    exact absurd hc (by decide)
  have hfraction : isDecimalFraction digits = false := by
    simp only [isDecimalFraction, signed_digits hdigits, hexponent, hpoint]
    cases decimalDigits? digits <;> rfl
  simp only [isFloat, signed_digits hdigits, hinf, hnan, hfraction, decide_false, Bool.or_false]

/-- Digits that are read as a number are read as that integer. -/
theorem integer?_digits {n : Nat} (hread : decimalDigits? digits = some digits)
    (hvalue : Nat.ofDigitChars 10 digits 0 = n) (hn : isInteger n = true) :
    integer? digits = some (n : Int) := by
  rw [integer?.eq_def]
  split
  · exact absurd (hdigits 'x' (by simp)) (by decide)
  · exact absurd (hdigits 'o' (by simp)) (by decide)
  · exact absurd (hdigits 'b' (by simp)) (by decide)
  · simp [signed_digits hdigits, hread, hvalue, hn]

/-- Digits alone are an integer or nothing. -/
theorem scalarOf?_digits : scalarOf? digits = (integer? digits).map .integer := by
  have htrue : digits ≠ "true".toList := ne_of_letter hdigits (x := 'e') (by decide) (by decide)
  have hfalse : digits ≠ "false".toList := ne_of_letter hdigits (x := 'e') (by decide) (by decide)
  rw [scalarOf?, if_neg htrue, if_neg hfalse, datetime?_digits hdigits]
  simp [isFloat_digits hdigits]

end Digits

/-- The decimal form of a number is taken whole. -/
theorem decimalDigits?_toDigits (n : Nat) :
    decimalDigits? (Nat.toDigits 10 n) = some (Nat.toDigits 10 n) := by
  have hdigits : ∀ c ∈ Nat.toDigits 10 n, c.isDigit = true := fun c hc =>
    Nat.isDigit_of_mem_toDigits (by decide) (by decide) hc
  rw [decimalDigits?, ungrouped?_digits hdigits Nat.toDigits_ne_nil]
  split
  · rename_i heq
    exact heq.symm
  · rename_i rest hne heq
    -- the digit 0 is not read before other digits, but of all numbers only zero begins with it
    obtain rfl : n = 0 := head_toDigits (by rw [Option.some.inj heq]; rfl)
    exact (hne (List.cons.inj (Option.some.inj heq)).2.symm).elim
  · rfl

/-- A number is read back from its digits. -/
theorem readsAs_repr {n : Nat} (h : isInteger n = true) : ReadsAs n.repr.toList (.integer n) := by
  intro rest
  have hdigits : ∀ c ∈ Nat.toDigits 10 n, c.isDigit = true := fun c hc =>
    Nat.isDigit_of_mem_toDigits (by decide) (by decide) hc
  have hspan : (Nat.toDigits 10 n ++ '\n' :: rest).span isScalarChar =
      (Nat.toDigits 10 n, '\n' :: rest) :=
    span_append (fun c hc => by simp [isScalarChar, Char.isAlphanum, hdigits c hc])
      (by rintro c ⟨⟩; decide)
  have hread := integer?_digits hdigits (decimalDigits?_toDigits n) Nat.ofDigitChars_ten_toDigits h
  have hrun : scalarRun (Nat.toDigits 10 n ++ '\n' :: rest) =
      (Nat.toDigits 10 n, '\n' :: rest) := by
    rw [scalarRun, hspan]
    rfl
  have hscalar : scalar (Nat.toDigits 10 n ++ '\n' :: rest) = some (.integer n, '\n' :: rest) := by
    simp only [scalar, hrun, scalarOf?_digits hdigits, hread, Option.map_some]
  obtain ⟨c, later, hfirst⟩ := List.exists_cons_of_ne_nil (Nat.toDigits_ne_nil (n := n) (b := 10))
  -- a digit is neither a blank nor the first character of a text, a list or a table
  have hplain : ∀ x ∈ [' ', '\t', '"', '\'', '[', '\x7b'], c ≠ x := by
    rintro x hx rfl
    have hc : c.isDigit = true := hdigits c (by simp [hfirst])
    simp only [List.mem_cons, List.not_mem_nil, or_false] at hx
    rcases hx with rfl | rfl | rfl | rfl | rfl | rfl <;> exact absurd hc (by decide)
  simp only [List.forall_mem_cons, List.not_mem_nil, false_implies, forall_const, and_true]
    at hplain
  rw [Nat.toList_repr]
  change value (skipBlanks (Nat.toDigits 10 n ++ '\n' :: rest)) = _
  rw [hfirst, List.cons_append] at hscalar ⊢
  rw [skipBlanks_cons (by simp [isBlank, hplain]), value, valueWithin.eq_def]
  simp [hplain, hscalar]

end FlatWeights.Toml
