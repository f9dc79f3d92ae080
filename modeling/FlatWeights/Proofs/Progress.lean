import FlatWeights.Progress
import Mathlib.Order.Basic

/-!
Progress through any source. Counting changes nothing of what a source hands out: `counting` is a
source again, and call by call it answers what the source in it answers, at the end and behind it
too. What it adds has a closed form after any number of calls (`calls_counting`). The position is
the number of items so far, and the total is the estimate of the beginning until the position
passes it, and from then on the position.

Nothing is assumed of what a source says about the items it has left, which it says once and may be
wrong about. Nor does a call without an item mean that none will follow: the end of a source is
where no call gives an item any more (`Ended`). Only if the estimate is the number of items up to
there is the total right from the beginning.
-/

set_option autoImplicit false

namespace FlatWeights

variable {σ α : Type}

namespace Source

variable {source : Source σ α} {s : σ} {count : Nat}

/-! ## Several calls -/

/-- What a source answers to a number of calls, and where it is then. -/
def calls (source : Source σ α) : Nat → σ → List (Option α) × σ
  | 0, s => ([], s)
  | n + 1, s =>
    let (answer, s) := source.next s
    let (answers, s) := calls source n s
    (answer :: answers, s)

/-- The items among the answers to a number of calls. -/
def items (source : Source σ α) (n : Nat) (s : σ) : List α := (source.calls n s).1.filterMap id

/-- No call gives an item any more. -/
def Ended (source : Source σ α) (s : σ) : Prop := ∀ n, source.items n s = []

/-- There are this many items up to the end. -/
def Yields (source : Source σ α) (s : σ) (count : Nat) : Prop :=
  ∃ n, (source.items n s).length = count ∧ source.Ended (source.calls n s).2

/-- The items of one more call. -/
theorem items_succ (n : Nat) (s : σ) : source.items (n + 1) s =
    (source.next s).1.toList ++ source.items n (source.next s).2 := by
  rw [items, calls, items]
  obtain ⟨answer, rest⟩ := source.next s
  cases answer <;> rfl

/-- Calls after calls. -/
theorem calls_add (m n : Nat) (s : σ) : source.calls (m + n) s =
    ((source.calls m s).1 ++ (source.calls n (source.calls m s).2).1,
      (source.calls n (source.calls m s).2).2) := by
  induction m generalizing s with
  | zero => rw [Nat.zero_add]; rfl
  | succ m ih =>
    rw [Nat.succ_add, calls, calls]
    simp only [ih, List.cons_append]

/-- The items of later calls come after those of the first ones. -/
theorem items_add (m n : Nat) (s : σ) :
    source.items (m + n) s = source.items m s ++ source.items n (source.calls m s).2 := by
  rw [items, calls_add, List.filterMap_append, items, items]

/-- More calls give no fewer items. -/
theorem length_items_le {m n : Nat} (h : m ≤ n) (s : σ) :
    (source.items m s).length ≤ (source.items n s).length := by
  obtain ⟨k, rfl⟩ := Nat.exists_eq_add_of_le h
  rw [items_add, List.length_append]
  exact Nat.le_add_right ..

/-- Behind the end there are no more items. -/
theorem items_of_ended {m n : Nat} (hended : source.Ended (source.calls m s).2) (h : m ≤ n) :
    source.items n s = source.items m s := by
  obtain ⟨k, rfl⟩ := Nat.exists_eq_add_of_le h
  rw [items_add, hended k, List.append_nil]

/-- There are never more items than the source has. -/
theorem Yields.length_items_le (h : source.Yields s count) (n : Nat) :
    (source.items n s).length ≤ count := by
  obtain ⟨k, rfl, hended⟩ := h
  rcases Nat.le_total n k with hle | hle
  · exact Source.length_items_le hle s
  · exact Nat.le_of_eq (congrArg _ (items_of_ended hended hle))

/-- All items were handed out exactly if the source is at its end. -/
theorem Yields.length_items_eq_iff (h : source.Yields s count) {n : Nat} :
    (source.items n s).length = count ↔ source.Ended (source.calls n s).2 := by
  constructor
  · intro hall k
    have hle := h.length_items_le (n + k)
    rw [items_add, List.length_append, hall] at hle
    exact List.eq_nil_of_length_eq_zero (by omega)
  · intro hended
    obtain ⟨k, rfl, hended'⟩ := h
    rcases Nat.le_total n k with hle | hle
    · rw [items_of_ended hended hle]
    · rw [items_of_ended hended' hle]

/-- An empty list is at its end. -/
theorem ended_nil : (exact : Source (List α) α).Ended [] := by
  intro n
  induction n with
  | zero => rfl
  | succ n ih => exact (items_succ n []).trans ih

/-- The items of a list are handed out, and then no more. -/
theorem yields_exact (left : List α) : exact.Yields left left.length := by
  refine ⟨left.length, ?_⟩
  induction left with
  | nil => exact ⟨rfl, ended_nil⟩
  | cons item left ih =>
    obtain ⟨hlength, hleft⟩ := ih
    exact ⟨by rw [List.length_cons, items_succ]; simpa [exact] using hlength, hleft⟩

end Source

namespace Progress

open Source

/-- A source that counts its items. -/
def counting (source : Source σ α) : Source (Progress σ) α where
  next := next source
  hint := hint source

/-- What counting adds to one call. -/
theorem next_counting (source : Source σ α) (p : Progress σ) (h : p.position ≤ p.total) :
    (counting source).next p = ((source.next p.inner).1, ⟨(source.next p.inner).2,
      p.position + (source.next p.inner).1.toList.length,
      max p.total (p.position + (source.next p.inner).1.toList.length)⟩) := by
  show next source p = _
  unfold next
  obtain ⟨answer, rest⟩ := source.next p.inner
  cases answer with
  | none => simp [Nat.max_eq_left h]
  | some item => rfl

/-- **What counting adds to a number of calls.** -/
theorem calls_counting (source : Source σ α) (n : Nat) (p : Progress σ)
    (h : p.position ≤ p.total) : (counting source).calls n p =
      ((source.calls n p.inner).1, ⟨(source.calls n p.inner).2,
        p.position + (source.items n p.inner).length,
        max p.total (p.position + (source.items n p.inner).length)⟩) := by
  induction n generalizing p with
  | zero =>
    obtain ⟨inner, position, total⟩ := p
    simp [calls, items, Nat.max_eq_left h]
  | succ n ih =>
    rw [calls, calls, next_counting source p h, items_succ, List.length_append]
    simp only
    rw [ih _ (Nat.le_max_right ..)]
    simp only [← Nat.add_assoc, Nat.max_assoc]
    rw [Nat.max_eq_right (Nat.le_add_right _ (source.items n (source.next p.inner).2).length)]

/-- **Counting, after any number of calls.** The answers are those of the source, and so is what is
left of it. The position is the number of items among them, and the total is the estimate of the
beginning or the position, whichever is larger; so the position never passes the total, and the
total never falls. If the estimate is exact and right, the total stays as it is, and the position
comes up to it exactly at the end. -/
theorem counting_exact (source : Source σ α) (s : σ) :
    let way (n : Nat) := (counting source).calls n (start source s)
    let estimate := (source.hint s).2.getD (source.hint s).1
    (∀ n, (way n).1 = (source.calls n s).1 ∧ (way n).2.inner = (source.calls n s).2 ∧
      (way n).2.position = ((way n).1.filterMap id).length ∧
      (way n).2.total = max estimate (way n).2.position ∧
      (way n).2.position ≤ (way n).2.total ∧
      ∀ later, n ≤ later → (way n).2.total ≤ (way later).2.total) ∧
    ∀ count, source.hint s = (count, some count) → source.Yields s count →
      (∀ n, (way n).2.total = count) ∧
      (∀ n, (way n).2.position = count ↔ source.Ended (way n).2.inner) ∧
      ∃ n, (way n).2.position = count := by
  intro way estimate
  -- the state after any number of calls, from which all parts are read off
  have hway (n : Nat) : way n = ((source.calls n s).1, ⟨(source.calls n s).2,
      (source.items n s).length, max estimate (source.items n s).length⟩) := by
    have hcalls := calls_counting source n (start source s) (Nat.zero_le _)
    rwa [show (start source s).position = 0 from rfl, Nat.zero_add] at hcalls
  refine ⟨fun n => ?_, fun count hhint hyields => ?_⟩
  · rw [hway n]
    refine ⟨rfl, rfl, rfl, rfl, Nat.le_max_right .., fun later hlater => ?_⟩
    rw [hway later]
    have hle : (source.items n s).length ≤ (source.items later s).length :=
      length_items_le hlater s
    simp only
    omega
  · have hestimate : estimate = count := by
      simp only [estimate, hhint, Option.getD_some]
    simp only [hway, hestimate]
    refine ⟨fun n => ?_, fun n => hyields.length_items_eq_iff, ?_⟩
    · exact Nat.max_eq_left (hyields.length_items_le n)
    · obtain ⟨n, hn, -⟩ := hyields
      exact ⟨n, hn⟩

/-- Two items that were announced and one that was not, and a call behind the end; then two items
that were announced as two, and three calls behind the end. -/
theorem counting_exact_chain :
    let source : Source (List Nat × List Nat) Nat := .chain .exact (.unbounded .exact)
    let longer := (counting source).calls 4 (start source ([1, 2], [3]))
    let right := (counting .exact).calls 5 (start .exact [7, 8])
    longer.1 = [some 1, some 2, some 3, none] ∧ longer.2.position = 3 ∧ longer.2.total = max 2 3 ∧
      Source.exact.Yields [7, 8] 2 ∧ right.2.total = 2 ∧ right.2.position = 2 := by
  intro source longer right
  obtain ⟨hanswers, -, hposition, htotal, -⟩ := (counting_exact source ([1, 2], [3])).1 4
  have hyields := yields_exact [7, 8]
  obtain ⟨hright, hend, -⟩ := (counting_exact .exact [7, 8]).2 2 rfl hyields
  exact ⟨hanswers, hposition, htotal, hyields, hright 5, (hend 5).2 ended_nil⟩

end Progress

end FlatWeights
