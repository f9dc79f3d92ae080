/-!
Cutting texts, given as lists of characters, at the places where their parts meet.
-/

set_option autoImplicit false

namespace FlatWeights.Text

/-- What follows a beginning, if the text has that beginning. -/
def after? : List Char → List Char → Option (List Char)
  | [], text => some text
  | _ :: _, [] => none
  | c :: start, d :: text => if c = d then after? start text else none

/-- The text before the first separator and the text after it, if there is one. -/
def splitOnce? (separator : Char) : List Char → Option (List Char × List Char)
  | [] => none
  | c :: text =>
    if c = separator then some ([], text)
    else (splitOnce? separator text).map fun (before, rest) => (c :: before, rest)

/-! ## The parts make up the text -/

/-- What follows a beginning is the rest of the text. -/
theorem after?_eq_some_iff {start text rest : List Char} :
    after? start text = some rest ↔ text = start ++ rest := by
  fun_induction after? start text with
  | case1 text => simp [eq_comm]
  | case2 => simp
  | case3 c start text ih => simp [ih]
  | case4 c start d text h => simp [Ne.symm h]

theorem after?_append (start rest : List Char) : after? start (start ++ rest) = some rest :=
  after?_eq_some_iff.2 rfl

/-- A text is cut at the first separator. -/
theorem eq_of_splitOnce? {separator : Char} {text before rest : List Char}
    (h : splitOnce? separator text = some (before, rest)) :
    text = before ++ separator :: rest ∧ separator ∉ before := by
  induction text generalizing before with
  | nil => simp [splitOnce?] at h
  | cons c text ih =>
    unfold splitOnce? at h
    split at h
    next hc => simp_all
    next hc =>
      obtain ⟨⟨b, r⟩, hb, he⟩ := Option.map_eq_some_iff.1 h
      simp only [Prod.mk.injEq] at he
      obtain ⟨rfl, rfl⟩ := he
      obtain ⟨rfl, hm⟩ := ih hb
      exact ⟨rfl, by simp [hm, Ne.symm hc]⟩

/-- A separator that is the first is where the text is cut. -/
theorem splitOnce?_append {separator : Char} {before : List Char} (rest : List Char)
    (h : separator ∉ before) :
    splitOnce? separator (before ++ separator :: rest) = some (before, rest) := by
  induction before with
  | nil => simp [splitOnce?]
  | cons c before ih =>
    simp only [List.mem_cons, not_or] at h
    simp [splitOnce?, Ne.symm h.1, ih h.2]

end FlatWeights.Text
