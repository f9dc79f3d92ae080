import FlatWeights.FileSystem.Disk
import FlatWeights.Proofs.Path
import Mathlib.Data.Option.Basic

/-!
Following a path. There are no links, so the names of a path alone say which places it leads
through and where it leads to; the tree only decides whether the way is open. `visits` and `lead?`
are the first part, and the lemmas on `goto` are the second: a way that is open stays open while the
directories on it stay (`goto_mono`), and two disks that agree on the places of the way answer alike
(`goto_congr`).

The working directory may fall out of the tree while something above it is removed. `FellFrom` says
so, and `lead_of_fell` that a path which still leads somewhere afterwards leads where it led before.
Otherwise the path ends among the directories that have fallen (`EndsOutside`), or it asks for
something in one of them, and nothing is in these.
-/

set_option autoImplicit false

namespace FlatWeights

/-! ## Ways, by their names alone -/

namespace WorkingDir

/-- The location of a directory that stands in the tree. -/
def place? : WorkingDir → Option Location
  | standing l => some l
  | removed _ _ => none

/-- Where a step leads. A directory that was removed has nothing in it. -/
def step : WorkingDir → Step → Option WorkingDir
  | standing l, .stay => some (standing l)
  | standing l, .up => some (standing l.tail)
  | standing l, .down name => some (standing (name :: l))
  | removed depth above, .stay => some (removed depth above)
  | removed 0 above, .up => some (standing above)
  | removed (depth + 1) above, .up => some (removed depth above)
  | removed _ _, .down _ => none

/-- Where steps lead. -/
def lead (w : WorkingDir) : List Step → Option Location
  | [] => w.place?
  | s :: rest => (w.step s).bind fun next => next.lead rest

/-- The places of the tree on the way that steps take, with the first one and the last one. -/
def visits (w : WorkingDir) : List Step → List Location
  | [] => w.place?.toList
  | s :: rest => w.place?.toList ++
    match w.step s with
    | some next => next.visits rest
    | none => []

theorem lead_concat_stay (w : WorkingDir) (front : List Step) :
    w.lead (front ++ [.stay]) = w.lead front := by
  induction front generalizing w with
  | nil => cases w <;> rfl
  | cons s front ih =>
    rw [List.cons_append, lead, lead]
    exact congrArg (w.step s).bind (funext fun next => ih next)

/-- To stay at the end does not change where steps lead. -/
theorem lead_append_stays (w : WorkingDir) (front : List Step) {stays : List Step}
    (hstays : ∀ s ∈ stays, s = .stay) : w.lead (front ++ stays) = w.lead front := by
  induction stays generalizing front with
  | nil => rw [List.append_nil]
  | cons s stays ih =>
    obtain rfl : s = .stay := hstays s (by simp)
    have hrest := ih (front ++ [.stay]) fun s hs => hstays s (by simp [hs])
    rw [List.append_assoc, List.singleton_append] at hrest
    rw [hrest, lead_concat_stay]

/-- One more name leads to the entry of that name. -/
theorem lead_concat_down (w : WorkingDir) (front : List Step) (name : String) :
    w.lead (front ++ [.down name]) = (w.lead front).map (name :: ·) := by
  induction front generalizing w with
  | nil => cases w <;> rfl
  | cons s front ih =>
    rw [List.cons_append, lead, lead]
    cases w.step s with
    | none => rfl
    | some next => exact ih next

/-- A way passes what its beginning passes. -/
theorem mem_visits_append {w : WorkingDir} {front back : List Step} {k : Location}
    (h : k ∈ w.visits front) : k ∈ w.visits (front ++ back) := by
  induction front generalizing w with
  | nil =>
    cases back with
    | nil => exact h
    | cons s back => exact List.mem_append_left _ h
  | cons s front ih =>
    rw [visits, List.mem_append] at h
    rw [List.cons_append, visits, List.mem_append]
    refine h.imp_right fun h => ?_
    cases hs : w.step s with
    | none => rw [hs] at h; exact absurd h (by simp)
    | some next => rw [hs] at h; exact ih h

/-- To stay passes no further place. -/
theorem mem_visits_concat_stay {w : WorkingDir} {front : List Step} {k : Location} :
    k ∈ w.visits (front ++ [.stay]) ↔ k ∈ w.visits front := by
  induction front generalizing w with
  | nil => cases w <;> simp [visits, step]
  | cons s front ih =>
    rw [List.cons_append, visits, visits, List.mem_append, List.mem_append]
    cases w.step s with
    | none => exact Iff.rfl
    | some next => exact or_congr_right ih

/-- One more step adds the place to which it leads. -/
theorem mem_visits_concat {w : WorkingDir} {front : List Step} {s : Step} {k : Location} :
    k ∈ w.visits (front ++ [s]) ↔ k ∈ w.visits front ∨ w.lead (front ++ [s]) = some k := by
  induction front generalizing w with
  | nil =>
    rw [List.nil_append, visits, visits, lead, List.mem_append, Option.mem_toList]
    cases w.step s with
    | none => simp
    | some next => simp [visits, lead, Option.mem_toList]
  | cons s' front ih =>
    rw [List.cons_append, visits, visits, lead, List.mem_append, List.mem_append, or_assoc]
    refine or_congr_right ?_
    cases w.step s' with
    | none => simp
    | some next => exact ih

/-- The place where steps end is one of those on their way. -/
theorem mem_visits_of_lead {w : WorkingDir} {steps : List Step} {l : Location}
    (h : w.lead steps = some l) : l ∈ w.visits steps := by
  induction steps generalizing w with
  | nil => rw [lead] at h; rw [visits, h]; simp
  | cons s rest ih =>
    obtain ⟨next, hnext, hrest⟩ := Option.bind_eq_some_iff.1 h
    rw [visits, hnext]
    exact List.mem_append_right _ (ih hrest)

/-- Steps that all stay lead through the place where they begin alone. -/
theorem visits_of_stays {w : WorkingDir} {stays : List Step} (h : ∀ s ∈ stays, s = .stay)
    {k : Location} (hk : k ∈ w.visits stays) : w.place? = some k := by
  induction stays with
  | nil => simpa [visits, eq_comm] using hk
  | cons s rest ih =>
    obtain rfl : s = .stay := h s (by simp)
    rw [visits, List.mem_append] at hk
    rcases hk with hk | hk
    · simpa [eq_comm] using hk
    · have hstep : w.step .stay = some w := by cases w <;> rfl
      rw [hstep] at hk
      exact ih (fun s hs => h s (by simp [hs])) hk

/-- Neither does it to stay more than once. -/
theorem mem_visits_append_stays {w : WorkingDir} {front stays : List Step}
    (hstays : ∀ s ∈ stays, s = .stay) {k : Location} :
    k ∈ w.visits (front ++ stays) ↔ k ∈ w.visits front := by
  induction stays using List.reverseRecOn with
  | nil => rw [List.append_nil]
  | append_singleton stays s ih =>
    obtain rfl : s = .stay := hstays s (by simp)
    rw [← List.append_assoc, mem_visits_concat_stay]
    exact ih fun s hs => hstays s (by simp [hs])

/-- The steps at the end that stay pass no further place. -/
theorem mem_visits_trim {w : WorkingDir} {steps : List Step} {k : Location} :
    k ∈ w.visits (Path.trim steps) ↔ k ∈ w.visits steps := by
  obtain ⟨stays, hsplit, hstays⟩ := Path.exists_trim steps
  conv_rhs => rw [hsplit]
  exact (mem_visits_append_stays hstays).symm

/-- The steps at the end that stay do not change where a path leads. -/
theorem lead_trim (w : WorkingDir) (steps : List Step) :
    w.lead (Path.trim steps) = w.lead steps := by
  obtain ⟨stays, hsplit, hstays⟩ := Path.exists_trim steps
  conv_rhs => rw [hsplit]
  exact (w.lead_append_stays _ hstays).symm

/-- The place where a way begins is one of those on it. -/
theorem mem_visits_of_place? {w : WorkingDir} {steps : List Step} {k : Location}
    (h : w.place? = some k) : k ∈ w.visits steps := by
  cases steps with
  | nil => rw [visits, h]; simp
  | cons s rest => rw [visits, h]; simp

/-- A way that leads to a place passes its ground. -/
theorem ground_mem_visits {w : WorkingDir} {steps : List Step} {l : Location}
    (h : w.lead steps = some l) : w.ground ∈ w.visits steps := by
  cases w with
  | standing here => exact mem_visits_of_place? rfl
  | removed depth above =>
    induction steps generalizing depth with
    | nil => exact absurd h (by simp [lead, place?])
    | cons s rest ih =>
      rw [visits, List.mem_append]
      cases s with
      | stay => exact .inr (ih depth h)
      | up =>
        cases depth with
        | zero => exact .inr (mem_visits_of_place? rfl)
        | succ depth => exact .inr (ih depth h)
      | down name => exact absurd h (by simp [lead, step])

/-- A step that stays out of the tree has the same ground. -/
theorem ground_of_step {w : WorkingDir} {s : Step} {depth : Nat} {above : Location}
    (h : w.step s = some (removed depth above)) : w.ground = above := by
  cases w with
  | standing l => cases s <;> exact absurd h (by simp [step])
  | removed depth' above' =>
    cases s with
    | stay => exact (removed.inj (Option.some.inj h)).2
    | up =>
      cases depth' with
      | zero => exact absurd h (by simp [step])
      | succ depth' => exact (removed.inj (Option.some.inj h)).2
    | down name => exact absurd h (by simp [step])

/-- Steps end at a directory that is no longer in the tree, and so never come into it. -/
inductive EndsOutside : WorkingDir → List Step → Prop
  | nil (depth : Nat) (above : Location) : EndsOutside (removed depth above) []
  | cons {w next : WorkingDir} {s : Step} {rest : List Step} (hnext : w.step s = some next)
      (hrest : EndsOutside next rest) : EndsOutside w (s :: rest)

/-- No step leads out of the tree. -/
theorem EndsOutside.exists_removed {w : WorkingDir} {steps : List Step} (h : w.EndsOutside steps) :
    ∃ depth above, w = removed depth above := by
  induction h with
  | nil depth above => exact ⟨depth, above, rfl⟩
  | @cons w next s rest hnext _ ih =>
    obtain ⟨depth, above, rfl⟩ := ih
    cases w with
    | removed depth' above' => exact ⟨depth', above', rfl⟩
    | standing l => cases s <;> exact absurd hnext (by simp [step])

theorem endsOutside_of_stays {depth : Nat} {above : Location} {stays : List Step}
    (h : ∀ s ∈ stays, s = .stay) : (removed depth above).EndsOutside stays := by
  induction stays with
  | nil => exact .nil depth above
  | cons s rest ih =>
    obtain rfl : s = .stay := h s (by simp)
    exact .cons (by cases depth <;> rfl) (ih fun s hs => h s (by simp [hs]))

/-- Outside of the tree there is nothing to go down to. -/
theorem EndsOutside.ne_down {w : WorkingDir} {steps : List Step} (h : w.EndsOutside steps)
    {s : Step} (hs : s ∈ steps) (name : String) : s ≠ .down name := by
  induction h with
  | nil depth above => exact absurd hs (by simp)
  | cons hnext hrest ih =>
    rcases List.mem_cons.1 hs with rfl | hs
    · obtain ⟨depth, above, rfl⟩ := (EndsOutside.cons hnext hrest).exists_removed
      rintro rfl
      exact absurd hnext (by cases depth <;> simp [step])
    · exact ih hs

/-- What ends outside of the tree was outside of it all the time. -/
theorem EndsOutside.of_append {w : WorkingDir} {front back : List Step}
    (h : w.EndsOutside (front ++ back)) : w.EndsOutside front := by
  induction front generalizing w with
  | nil =>
    obtain ⟨depth, above, rfl⟩ := h.exists_removed
    exact .nil depth above
  | cons s front ih =>
    cases h with
    | cons hnext hrest => exact .cons hnext (ih hrest)

theorem EndsOutside.lead {w : WorkingDir} {steps : List Step} (h : w.EndsOutside steps) :
    w.lead steps = none := by
  induction h with
  | nil depth above => rfl
  | cons hnext _ ih => rw [WorkingDir.lead, hnext, Option.bind_some, ih]

theorem EndsOutside.visits {w : WorkingDir} {steps : List Step} (h : w.EndsOutside steps) :
    w.visits steps = [] := by
  induction h with
  | nil depth above => rfl
  | cons hnext hrest ih =>
    obtain ⟨depth, above, rfl⟩ := (EndsOutside.cons hnext hrest).exists_removed
    rw [WorkingDir.visits, hnext]
    exact ih

/-! ### Falling out of the tree -/

/-- What a working directory becomes when something at a place or below it is removed from the tree:
if it lies there it falls out, and only what is above what was removed can still be reached. -/
def FellFrom (place : Location) (before after : WorkingDir) : Prop :=
  after = before ∨ ∃ name above, place <:+ name :: above ∧ name :: above <:+ before.ground ∧
    after = removed (before.distance + (before.ground.length - (above.length + 1))) above

variable {place : Location} {before after : WorkingDir}

theorem FellFrom.refl (place : Location) (w : WorkingDir) : FellFrom place w w := .inl rfl

/-- What falls in two steps has fallen. -/
theorem FellFrom.trans {later : WorkingDir} (h : FellFrom place before after)
    (h' : FellFrom place after later) : FellFrom place before later := by
  rcases h with rfl | ⟨name, above, hplace, hground, rfl⟩
  · exact h'
  rcases h' with rfl | ⟨name', above', hplace', hground', rfl⟩
  · exact .inr ⟨name, above, hplace, hground, rfl⟩
  · have hbelow : name' :: above' <:+ above := hground'
    refine .inr ⟨name', above', hplace', (hbelow.trans (List.suffix_cons _ _)).trans hground, ?_⟩
    have hlength := hbelow.length_le
    have hlength' := hground.length_le
    simp only [List.length_cons] at hlength hlength'
    simp only [distance_removed, ground_removed, removed.injEq, and_true]
    omega

theorem FellFrom.eq_of_not_suffix (h : FellFrom place before after)
    (hout : ¬ place <:+ before.ground) : after = before := by
  rcases h with hsame | ⟨name, above, hplace, hground, -⟩
  · exact hsame
  · exact absurd (hplace.trans hground) hout

/-- A working directory falls if it lies at a place that is erased, or below it. -/
theorem fellFrom_afterErase (hplace : place ≠ []) (w : WorkingDir) :
    FellFrom place w (w.afterErase place) := by
  rw [afterErase]
  split
  · rename_i h
    obtain ⟨name, above, rfl⟩ := List.exists_cons_of_ne_nil hplace
    exact .inr ⟨name, above, List.suffix_refl _, h, rfl⟩
  · exact .inl rfl

/-- A working directory falls if it lies strictly below a place that is cleared. -/
theorem fellFrom_afterClear (place : Location) (w : WorkingDir) :
    FellFrom place w (w.afterClear place) := by
  rw [afterClear]
  split
  · rename_i h
    obtain ⟨⟨front, hfront⟩, hne⟩ := h
    cases front using List.reverseRecOn with
    | nil => exact absurd hfront.symm hne
    | append_singleton front name =>
      refine .inr ⟨name, place, List.suffix_cons _ _, ⟨front, ?_⟩, rfl⟩
      rw [← hfront, List.append_assoc]
      rfl
  · exact .inl rfl

/-- To fall with what lies below a place leaves it below, or above. -/
theorem suffix_ground_afterClear {w : WorkingDir} :
    place <:+ (w.afterClear place).ground ↔ place <:+ w.ground := by
  rw [afterClear]
  split
  · rename_i h
    exact iff_of_true (List.suffix_refl place) h.1
  · exact Iff.rfl

theorem afterClear_of_not_suffix {w : WorkingDir} (h : ¬ place <:+ w.ground) :
    w.afterClear place = w := if_neg fun hboth => h hboth.1

/-- Nothing that is cleared is above a ground but the place itself. -/
theorem ground_afterClear {w : WorkingDir} (h : place <:+ (w.afterClear place).ground) :
    (w.afterClear place).ground = place := by
  rw [afterClear] at h ⊢
  split
  · rfl
  · rename_i hnot
    rw [if_neg hnot] at h
    by_contra hne
    exact hnot ⟨h, hne⟩

/-- What is erased is above no ground. -/
theorem not_suffix_ground_afterErase (hplace : place ≠ []) (w : WorkingDir) :
    ¬ place <:+ (w.afterErase place).ground := by
  rw [afterErase]
  split
  · obtain ⟨name, above, rfl⟩ := List.exists_cons_of_ne_nil hplace
    intro hsuf
    have hlength := hsuf.length_le
    rw [ground_removed, List.tail_cons, List.length_cons] at hlength
    omega
  · assumption

theorem afterClear_of_below {w : WorkingDir} (h : place <:+ w.ground)
    (hlength : place.length < w.ground.length) :
    w.afterClear place = removed (w.distance + (w.ground.length - (place.length + 1))) place := by
  refine if_pos ⟨h, ?_⟩
  rintro heq
  exact absurd hlength (by rw [heq]; exact Nat.lt_irrefl _)

/-- A working directory that has fallen on the way falls as far as it would have fallen at once,
unless it fell with the place itself and is out of it. -/
theorem FellFrom.afterClear (h : FellFrom place before after) :
    after.afterClear place = before.afterClear place ∨
      after = (before.afterClear place).afterErase place := by
  rcases h with rfl | ⟨name, above, hsuf, hground, rfl⟩
  · exact .inl rfl
  have hlength := hground.length_le
  simp only [List.length_cons] at hlength
  -- what was removed first was the place itself, or something below it
  rcases List.suffix_cons_iff.1 hsuf with rfl | hbelow
  · right
    rcases Nat.lt_or_eq_of_le hlength with hlt | heq
    · rw [afterClear_of_below hground (by simpa using hlt), afterErase, ground_removed,
        if_pos (List.suffix_refl _)]
      simp only [distance_removed, List.length_cons, List.tail_cons, removed.injEq, and_true]
      omega
    · have hself : before.ground = name :: above := (hground.eq_of_length (by simpa using heq)).symm
      rw [WorkingDir.afterClear, if_neg fun h => h.2 hself, afterErase, if_pos hground]
      simp
  · left
    have hlength' := hbelow.length_le
    rw [afterClear_of_below (hsuf.trans hground) (by omega)]
    rcases Nat.lt_or_eq_of_le hlength' with hlt | heq
    · rw [afterClear_of_below hbelow (by simpa using hlt)]
      simp only [distance_removed, ground_removed, removed.injEq, and_true]
      omega
    · obtain rfl := hbelow.eq_of_length heq
      rw [WorkingDir.afterClear, if_neg fun h => h.2 rfl]

/-- A step that is still to be had after the fall was there before it, and leads to where what is
reached by it has come from. -/
theorem FellFrom.step (h : FellFrom place before after) {s : Step} {next : WorkingDir}
    (hnext : after.step s = some next) :
    ∃ next', before.step s = some next' ∧ FellFrom place next' next := by
  rcases h with rfl | ⟨name, above, hplace, hground, rfl⟩
  · exact ⟨next, hnext, .refl place next⟩
  cases s with
  | down name => exact absurd hnext (by simp [WorkingDir.step])
  | stay =>
    obtain rfl := Option.some.inj hnext
    refine ⟨before, by cases before <;> rfl, .inr ⟨name, above, hplace, hground, rfl⟩⟩
  | up =>
    -- the step leads out of what was removed, or to a directory below that was removed as well
    cases before with
    | standing here =>
      obtain ⟨front, rfl⟩ := hground
      cases front with
      | nil =>
        obtain rfl : standing above = next := by simpa [WorkingDir.step] using hnext
        exact ⟨_, rfl, .refl place _⟩
      | cons x front =>
        have hdepth : (x :: front ++ name :: above).length - (above.length + 1) =
            front.length + 1 := by
          simp only [List.length_append, List.length_cons]
          omega
        simp only [distance_standing, ground_standing, hdepth] at hnext
        obtain rfl : removed front.length above = next := by simpa [WorkingDir.step] using hnext
        refine ⟨_, rfl, .inr ⟨name, above, hplace, ⟨front, rfl⟩, ?_⟩⟩
        simp
    | removed depth here =>
      have hdepth : depth + 1 + (here.length - (above.length + 1)) =
          depth + (here.length - (above.length + 1)) + 1 := by omega
      simp only [distance_removed, ground_removed, hdepth] at hnext
      obtain rfl := Option.some.inj hnext
      cases depth with
      | zero => exact ⟨_, rfl, .inr ⟨name, above, hplace, hground, by simp⟩⟩
      | succ depth => exact ⟨_, rfl, .inr ⟨name, above, hplace, hground, by simp⟩⟩

/-- Steps that lead somewhere from a directory that fell out led to the same place before. -/
theorem lead_of_fell (h : FellFrom place before after) {steps : List Step} {l : Location}
    (hl : after.lead steps = some l) : before.lead steps = some l := by
  induction steps generalizing before after with
  | nil =>
    rcases h with rfl | ⟨name, above, -, -, rfl⟩
    · exact hl
    · exact absurd hl (by simp [lead, place?])
  | cons s rest ih =>
    obtain ⟨next, hnext, hrest⟩ := Option.bind_eq_some_iff.1 hl
    obtain ⟨next', hnext', hfell⟩ := h.step hnext
    rw [lead, hnext']
    exact ih hfell hrest

theorem FellFrom.place? (h : FellFrom place before after) {k : Location}
    (hk : after.place? = some k) : before.place? = some k := by
  rcases h with rfl | ⟨name, above, -, -, rfl⟩
  · exact hk
  · exact absurd hk (by simp [WorkingDir.place?])

theorem FellFrom.place?_of_not_suffix (h : FellFrom place before after) {k : Location}
    (hk : before.place? = some k) (hout : ¬ place <:+ k) : after.place? = some k := by
  rcases h with rfl | ⟨name, above, hplace, hground, rfl⟩
  · exact hk
  · cases before with
    | standing here =>
      obtain rfl := Option.some.inj hk
      exact absurd (hplace.trans hground) hout
    | removed depth above => exact absurd hk (by simp [WorkingDir.place?])

/-- A way that begins in a directory that fell out passes nothing that it did not pass before. -/
theorem visits_of_fell (h : FellFrom place before after) {steps : List Step} {k : Location}
    (hk : k ∈ after.visits steps) : k ∈ before.visits steps := by
  induction steps generalizing before after with
  | nil =>
    rw [visits, Option.mem_toList] at hk ⊢
    exact h.place? hk
  | cons s rest ih =>
    rw [visits, List.mem_append, Option.mem_toList] at hk ⊢
    rcases hk with hk | hk
    · exact .inl (h.place? hk)
    · cases hnext : after.step s with
      | none => rw [hnext] at hk; exact absurd hk (by simp)
      | some next =>
        obtain ⟨next', hnext', hfell⟩ := h.step hnext
        rw [hnext] at hk
        rw [hnext']
        exact .inr (ih hfell hk)

/-- Of a way that still leads somewhere only the beginning can have been lost. -/
theorem visits_of_not_fell (h : FellFrom place before after) {steps : List Step} {l k : Location}
    (hl : after.lead steps = some l) (hk : k ∈ before.visits steps) (hout : ¬ place <:+ k) :
    k ∈ after.visits steps := by
  induction steps generalizing before after with
  | nil =>
    rw [visits, Option.mem_toList] at hk ⊢
    exact h.place?_of_not_suffix hk hout
  | cons s rest ih =>
    obtain ⟨next, hnext, hrest⟩ := Option.bind_eq_some_iff.1 hl
    obtain ⟨next', hnext', hfell⟩ := h.step hnext
    rw [visits, hnext', List.mem_append, Option.mem_toList] at hk
    rw [visits, hnext, List.mem_append, Option.mem_toList]
    exact hk.imp (h.place?_of_not_suffix · hout) fun hk => ih hfell hrest hk

end WorkingDir

namespace Disk

/-- Where the steps of a path are taken from. -/
def origin (d : Disk) (p : Path) : WorkingDir :=
  if p.isAbsolute then .standing [] else d.here

/-- The place that a path leads to by its names, if they lead to one. -/
def lead? (d : Disk) (p : Path) : Option Location := (d.origin p).lead p.steps

/-- The places on the way that a path takes by its names, with the first one and the last one. -/
def visits (d : Disk) (p : Path) : List Location := (d.origin p).visits p.steps

/-! ## Ways in a tree -/

/-- The location that steps lead to from a directory, which may be one that was removed. -/
def goto (d : Disk) : WorkingDir → List Step → Except Astray Location
  | .standing l, steps => d.walk l steps
  | .removed depth above, steps => d.walkOutside above depth steps

@[simp] theorem goto_standing (d : Disk) (l : Location) (steps : List Step) :
    d.goto (.standing l) steps = d.walk l steps := rfl

@[simp] theorem goto_removed (d : Disk) (depth : Nat) (above : Location) (steps : List Step) :
    d.goto (.removed depth above) steps = d.walkOutside above depth steps := rfl

/-- A path that can be followed leads where its steps lead from its beginning. -/
theorem locate_eq (d : Disk) {p : Path} (hp : p ≠ "") :
    d.locate p = if d.takesPath p then d.goto (d.origin p) p.steps else .error .badName := by
  rw [locate, if_neg hp, origin]
  by_cases htakes : d.takesPath p = true
  · by_cases habs : p.isAbsolute = true
    · simp [htakes, habs, goto]
    · cases h : d.here <;> simp [htakes, habs, goto]
  · simp [htakes]

/-- Why a step cannot be taken, if it cannot. -/
def refusal? (d : Disk) : WorkingDir → Step → Option Astray
  | .standing l, s =>
    match d.tree.find? l, s with
    | none, _ => some .missing
    | some (.file _), _ => some .notDirectory
    | some .directory, .down name => if d.takesName name then none else some .badName
    | some .directory, _ => none
  | .removed _ _, .stay | .removed (_ + 1) _, .up => none
  | .removed 0 above, .up => if d.tree.find? above = some .directory then none else some .missing
  | .removed _ _, .down name => some (if d.takesName name then .missing else .badName)

/-- Steps are taken one at a time. -/
theorem goto_cons (d : Disk) (w : WorkingDir) (s : Step) (rest : List Step) :
    d.goto w (s :: rest) =
      match d.refusal? w s, w.step s with
      | some astray, _ => .error astray
      | none, some next => d.goto next rest
      | none, none => .error .outside := by
  -- of the steps outside of the tree only the one that leads back into it looks at the tree
  cases w with
  | removed depth above =>
    cases s with
    | stay | down => cases depth <;> rfl
    | up =>
      cases depth with
      | succ depth => rfl
      | zero =>
        rw [goto_removed, walkOutside]
        by_cases habove : d.tree.find? above = some .directory
        · simp [refusal?, habove, WorkingDir.step]
        · simp [refusal?, habove]
  | standing l =>
    rw [goto_standing, walk_cons, refusal?.eq_def]
    cases hl : d.tree.find? l with
    | none => simp [hl]
    | some e =>
      cases e with
      | file content => simp [hl]
      | directory =>
        cases s with
        | stay | up => simp [hl, WorkingDir.step]
        | down name =>
          by_cases h : d.takesName name = true
          · simp [hl, h, WorkingDir.step]
          · simp [hl, h]

/-- A way is open if its first step is taken and the rest is open from there. -/
theorem goto_cons_eq_ok_iff {d : Disk} {w : WorkingDir} {s : Step} {rest : List Step}
    {l : Location} : d.goto w (s :: rest) = .ok l ↔
      d.refusal? w s = none ∧ ∃ next, w.step s = some next ∧ d.goto next rest = .ok l := by
  rw [goto_cons]
  cases d.refusal? w s with
  | some astray => simp
  | none => cases w.step s <;> simp

/-- In the tree a step is taken from a directory, and down to a name that is one. -/
theorem refusal?_standing_eq_none_iff {d : Disk} {l : Location} {s : Step} :
    d.refusal? (.standing l) s = none ↔
      d.tree.find? l = some .directory ∧ ∀ name, s = .down name → d.takesName name = true := by
  rw [refusal?.eq_def]
  cases hl : d.tree.find? l with
  | none => simp [hl]
  | some e =>
    cases e with
    | file content => simp [hl]
    | directory => cases s <;> simp [hl]

/-- Out of the tree a step is to be had unless it goes down, or back to where no directory is. -/
theorem refusal?_removed_eq_none_iff {d : Disk} {depth : Nat} {above : Location} {s : Step} :
    d.refusal? (.removed depth above) s = none ↔
      (∀ name, s ≠ .down name) ∧
        (depth = 0 → s = .up → d.tree.find? above = some .directory) := by
  cases s with
  | stay => cases depth <;> simp [refusal?]
  | up =>
    cases depth with
    | succ depth => simp [refusal?]
    | zero =>
      rw [refusal?]
      split <;> simp_all
  | down name => cases depth <;> simp [refusal?]

/-- A way that is open leads where its names lead. -/
theorem lead_of_goto {d : Disk} {w : WorkingDir} {steps : List Step} {l : Location}
    (h : d.goto w steps = .ok l) : w.lead steps = some l := by
  induction steps generalizing w with
  | nil =>
    cases w with
    | standing l' => exact congrArg some (Except.ok.inj h)
    | removed depth above => exact absurd h (by simp [goto, walkOutside])
  | cons s rest ih =>
    obtain ⟨-, next, hnext, hrest⟩ := goto_cons_eq_ok_iff.1 h
    rw [WorkingDir.lead, hnext]
    exact ih hrest

/-- Every place on an open way is a directory, the last one perhaps apart. -/
theorem directory_of_goto {d : Disk} {w : WorkingDir} {steps : List Step} {l k : Location}
    (h : d.goto w steps = .ok l) (hk : k ∈ w.visits steps) (hkl : k ≠ l) :
    d.tree.find? k = some .directory := by
  -- a place that is not the last one was left by a step, and steps leave directories only
  induction steps generalizing w with
  | nil =>
    have hl : w.place? = some l := lead_of_goto h
    rw [WorkingDir.visits, hl] at hk
    exact absurd (by simpa using hk) hkl
  | cons s rest ih =>
    obtain ⟨hs, next, hnext, hrest⟩ := goto_cons_eq_ok_iff.1 h
    rw [WorkingDir.visits, hnext, List.mem_append] at hk
    rcases hk with hk | hk
    · cases w with
      | standing l' =>
        obtain rfl : k = l' := by simpa [WorkingDir.place?, eq_comm] using hk
        exact (refusal?_standing_eq_none_iff.1 hs).1
      | removed depth above => exact absurd hk (by simp [WorkingDir.place?])
    · exact ih hrest hk

/-! ### Two disks -/

/-- Two disks take the same names and paths. -/
structure SameLimits (d e : Disk) : Prop where
  names : d.longestName = e.longestName
  paths : d.longestPath = e.longestPath

namespace SameLimits

variable {d e f : Disk}

theorem refl (d : Disk) : SameLimits d d := ⟨rfl, rfl⟩

theorem symm (h : SameLimits d e) : SameLimits e d := ⟨h.names.symm, h.paths.symm⟩

theorem trans (h : SameLimits d e) (h' : SameLimits e f) : SameLimits d f :=
  ⟨h.names.trans h'.names, h.paths.trans h'.paths⟩

/-- Disks with the same limits take the same names. -/
theorem takesName_eq (h : SameLimits d e) (name : String) :
    d.takesName name = e.takesName name := by
  rw [takesName, takesName, h.names]

/-- Disks with the same limits take the same paths. -/
theorem takesPath_eq (h : SameLimits d e) (p : Path) : d.takesPath p = e.takesPath p := by
  rw [takesPath, takesPath, h.paths]

end SameLimits

/-- A way stays open while the directories on it stay. -/
theorem goto_mono {d e : Disk} (hlim : SameLimits d e) {w : WorkingDir} {steps : List Step}
    {l : Location} (h : d.goto w steps = .ok l)
    (hdirs : ∀ k ∈ w.visits steps, d.tree.find? k = some .directory →
      e.tree.find? k = some .directory) : e.goto w steps = .ok l := by
  induction steps generalizing w with
  | nil => cases w <;> exact h
  | cons s rest ih =>
    obtain ⟨hs, next, hnext, hrest⟩ := goto_cons_eq_ok_iff.1 h
    rw [WorkingDir.visits, hnext] at hdirs
    refine goto_cons_eq_ok_iff.2 ⟨?_, next, hnext, ih hrest fun k hk => hdirs k (by simp [hk])⟩
    -- a step that was granted is granted again if the directory that it needs is still there
    cases w with
    | removed depth above =>
      rw [refusal?_removed_eq_none_iff] at hs ⊢
      refine ⟨hs.1, fun hdepth hup => hdirs above ?_ (hs.2 hdepth hup)⟩
      subst hdepth hup
      obtain rfl := Option.some.inj hnext
      exact List.mem_append_right _ (WorkingDir.mem_visits_of_place? rfl)
    | standing l' =>
      obtain ⟨hdir, hname⟩ := refusal?_standing_eq_none_iff.1 hs
      refine refusal?_standing_eq_none_iff.2 ⟨?_, fun name hs => ?_⟩
      · exact hdirs l' (by simp [WorkingDir.place?]) hdir
      · rw [← hlim.takesName_eq]
        exact hname name hs

/-- The answer depends on nothing but the places on the way. -/
theorem goto_congr {d e : Disk} (hlim : SameLimits d e) {w : WorkingDir} {steps : List Step}
    (hview : ∀ k ∈ w.visits steps, d.tree.find? k = e.tree.find? k) :
    d.goto w steps = e.goto w steps := by
  induction steps generalizing w with
  | nil => cases w <;> rfl
  | cons s rest ih =>
    rw [WorkingDir.visits] at hview
    -- whether a step is refused depends on one place of the way and on the name that it takes
    have hs : d.refusal? w s = e.refusal? w s := by
      cases w with
      | removed depth above =>
        cases s with
        | stay => cases depth <;> rfl
        | up =>
          cases depth with
          | succ depth => rfl
          | zero =>
            have hmem : above ∈ (WorkingDir.standing above).visits rest :=
              WorkingDir.mem_visits_of_place? rfl
            have habove := hview above (by simp [WorkingDir.step, hmem])
            simp only [refusal?, habove]
        | down name => cases depth <;> simp only [refusal?, hlim.takesName_eq]
      | standing l =>
        have hl := hview l (by simp [WorkingDir.place?])
        simp only [refusal?.eq_def, hl, hlim.takesName_eq]
    rw [goto_cons, goto_cons, hs]
    cases hnext : w.step s with
    | none => cases e.refusal? w s <;> rfl
    | some next =>
      rw [hnext] at hview
      have hrest := ih (w := next) fun k hk => hview k (by simp [hk])
      cases e.refusal? w s with
      | none => exact hrest
      | some astray => rfl

/-- No step is refused for leading outside; it is the end of a way that may lie there. -/
theorem refusal?_ne_outside (d : Disk) (w : WorkingDir) (step : Step) :
    d.refusal? w step ≠ some .outside := by
  rw [refusal?.eq_def]
  grind

/-- A step that is not refused leads somewhere. -/
theorem exists_step_of_refusal? {d : Disk} {w : WorkingDir} {step : Step}
    (h : d.refusal? w step = none) :
    ∃ next, w.step step = some next := by
  cases w with
  | standing l => cases step <;> exact ⟨_, rfl⟩
  | removed depth above =>
    cases step with
    | stay => cases depth <;> exact ⟨_, rfl⟩
    | up => cases depth <;> exact ⟨_, rfl⟩
    | down name => exact absurd rfl ((refusal?_removed_eq_none_iff.1 h).1 name)

/-- A step that stays outside of the tree is not refused. -/
theorem refusal?_of_endsOutside (d : Disk) {w next : WorkingDir} {s : Step} {rest : List Step}
    (hnext : w.step s = some next) (hrest : next.EndsOutside rest) : d.refusal? w s = none := by
  obtain ⟨depth, above, rfl⟩ := (WorkingDir.EndsOutside.cons hnext hrest).exists_removed
  refine refusal?_removed_eq_none_iff.2 ⟨fun name hs => ?_, fun hdepth hs => ?_⟩
  · subst hs
    exact absurd hnext (by cases depth <;> simp [WorkingDir.step])
  · subst hdepth hs
    obtain rfl := Option.some.inj hnext
    obtain ⟨depth, above', hne⟩ := hrest.exists_removed
    exact absurd hne (by simp)

/-- A way ends outside of the tree exactly if it never comes into it. -/
theorem goto_eq_outside_iff {d : Disk} {w : WorkingDir} {steps : List Step} :
    d.goto w steps = .error .outside ↔ w.EndsOutside steps := by
  constructor
  · intro h
    induction steps generalizing w with
    | nil =>
      cases w with
      | standing l => exact absurd h (by simp [walk_nil])
      | removed depth above => exact .nil depth above
    | cons s rest ih =>
      rw [goto_cons] at h
      cases hno : d.refusal? w s with
      | some astray =>
        -- a step is refused for other reasons only
        rw [hno] at h
        exact absurd (hno.trans (congrArg some (Except.error.inj h))) (refusal?_ne_outside d w s)
      | none =>
        obtain ⟨next, hnext⟩ := exists_step_of_refusal? hno
        rw [hno, hnext] at h
        exact .cons hnext (ih h)
  · intro h
    induction h with
    | nil depth above => rfl
    | cons hnext hrest ih =>
      rw [goto_cons, refusal?_of_endsOutside d hnext hrest, hnext]
      exact ih

/-- A way that ends outside of the tree leads to no place in it. -/
theorem lead_of_outside {d : Disk} {w : WorkingDir} {steps : List Step}
    (h : d.goto w steps = .error .outside) : w.lead steps = none :=
  (goto_eq_outside_iff.1 h).lead

/-- A way that is open on one disk is open on another one, or something on it is missing, if nothing
but directories stands on it there. -/
theorem goto_ok_or_missing {d e : Disk} (hlim : SameLimits d e) {w : WorkingDir}
    {steps : List Step} {l : Location} (h : d.goto w steps = .ok l)
    (hway : ∀ k ∈ w.visits steps, e.tree.find? k = none ∨ e.tree.find? k = some .directory) :
    e.goto w steps = .ok l ∨ e.goto w steps = .error .missing := by
  induction steps generalizing w with
  | nil => cases w <;> exact .inl h
  | cons s rest ih =>
    obtain ⟨hs, next, hnext, hrest⟩ := goto_cons_eq_ok_iff.1 h
    have hafter : e.goto next rest = .ok l ∨ e.goto next rest = .error .missing := by
      refine ih hrest fun k hk => hway k ?_
      rw [WorkingDir.visits, hnext]
      exact List.mem_append_right _ hk
    -- a directory lets the step through as on the first disk, and otherwise it is missing
    have hstep : e.refusal? w s = none ∨ e.refusal? w s = some .missing := by
      cases w with
      | removed depth above =>
        cases s with
        | stay => exact .inl (by cases depth <;> rfl)
        | up =>
          cases depth with
          | succ depth => exact .inl rfl
          | zero =>
            rw [refusal?]
            split <;> simp
        | down name => exact absurd hnext (by simp [WorkingDir.step])
      | standing l' =>
        rcases hway l' (WorkingDir.mem_visits_of_place? rfl) with hnone | hdir
        · exact .inr (by simp [refusal?.eq_def, hnone])
        · refine .inl (refusal?_standing_eq_none_iff.2 ⟨hdir, fun name hname => ?_⟩)
          rw [← hlim.takesName_eq]
          exact (refusal?_standing_eq_none_iff.1 hs).2 name hname
    rw [goto_cons]
    rcases hstep with hopen | hmissing
    · rw [hopen, hnext]
      exact hafter
    · rw [hmissing]
      exact .inr rfl

/-- Steps are taken from a directory, or out of a removed one to a directory. -/
theorem ground_of_goto {d : Disk} {w : WorkingDir} {steps : List Step} {l : Location}
    (hsteps : steps ≠ []) (h : d.goto w steps = .ok l) :
    d.tree.find? w.ground = some .directory := by
  induction steps generalizing w with
  | nil => exact absurd rfl hsteps
  | cons s rest ih =>
    obtain ⟨hs, next, hnext, hrest⟩ := goto_cons_eq_ok_iff.1 h
    cases w with
    | standing l' => exact (refusal?_standing_eq_none_iff.1 hs).1
    | removed depth above =>
      -- as long as the steps stay outside, the ground is the same
      have hstill : ∀ depth', next = .removed depth' above →
          d.tree.find? above = some .directory := by
        rintro depth' rfl
        refine ih ?_ hrest
        rintro rfl
        exact absurd hrest (by simp [walkOutside])
      cases s with
      | stay => exact hstill depth (Option.some.inj hnext).symm
      | up =>
        cases depth with
        | zero => exact (refusal?_removed_eq_none_iff.1 hs).2 rfl rfl
        | succ depth => exact hstill depth (Option.some.inj hnext).symm
      | down name => exact absurd hnext (by simp [WorkingDir.step])

/-- A step that is taken somewhere is taken wherever the ground stands. -/
theorem refusal?_of_ground {d e : Disk} (hlim : SameLimits d e) {w : WorkingDir} {s : Step}
    (h : d.refusal? w s = none) (hground : e.tree.find? w.ground = some .directory) :
    e.refusal? w s = none := by
  cases w with
  | standing l =>
    refine refusal?_standing_eq_none_iff.2 ⟨hground, fun name hname => ?_⟩
    rw [← hlim.takesName_eq]
    exact (refusal?_standing_eq_none_iff.1 h).2 name hname
  | removed depth above =>
    exact refusal?_removed_eq_none_iff.2 ⟨(refusal?_removed_eq_none_iff.1 h).1, fun _ _ => hground⟩

/-- An open way is open wherever its ground stands and what it passes before its last step. -/
theorem goto_concat_mono {d e : Disk} (hlim : SameLimits d e) {w : WorkingDir} {front : List Step}
    {s : Step} {l : Location} (h : d.goto w (front ++ [s]) = .ok l)
    (hground : e.tree.find? w.ground = some .directory)
    (hdirs : ∀ k ∈ w.visits front, e.tree.find? k = some .directory) :
    e.goto w (front ++ [s]) = .ok l := by
  induction front generalizing w with
  | nil =>
    obtain ⟨hs, next, hnext, hrest⟩ := goto_cons_eq_ok_iff.1 h
    refine goto_cons_eq_ok_iff.2 ⟨refusal?_of_ground hlim hs hground, next, hnext, ?_⟩
    cases next <;> exact hrest
  | cons s' front ih =>
    obtain ⟨hs, next, hnext, hrest⟩ := goto_cons_eq_ok_iff.1 h
    rw [WorkingDir.visits, hnext] at hdirs
    have hafter : ∀ k ∈ next.visits front, e.tree.find? k = some .directory := fun k hk =>
      hdirs k (List.mem_append_right _ hk)
    refine goto_cons_eq_ok_iff.2
      ⟨refusal?_of_ground hlim hs hground, next, hnext, ih hrest ?_ hafter⟩
    -- the next step is taken from a place that was passed, or still outside of the tree
    cases next with
    | standing l' => exact hafter l' (WorkingDir.mem_visits_of_place? rfl)
    | removed depth above =>
      rwa [WorkingDir.ground_of_step hnext] at hground

/-- Where one more step leads to a place, the way to it led to a directory, or out of the tree. -/
theorem goto_of_concat {d : Disk} {w : WorkingDir} {front : List Step} {s : Step} {l : Location}
    (h : d.goto w (front ++ [s]) = .ok l) :
    (∃ l', d.goto w front = .ok l' ∧ d.tree.find? l' = some .directory) ∨
      d.goto w front = .error .outside := by
  induction front generalizing w with
  | nil =>
    cases w with
    | standing l' => exact .inl ⟨l', rfl, ground_of_goto (by simp) h⟩
    | removed depth above => exact .inr rfl
  | cons s' front ih =>
    obtain ⟨hs, next, hnext, hrest⟩ := goto_cons_eq_ok_iff.1 h
    rw [goto_cons, hs, hnext]
    exact ih hrest

/-! ## From a directory to its entries -/

/-- To stay at the end of an open way asks for a directory there. -/
theorem goto_concat_stay_eq_ok_iff {d : Disk} {w : WorkingDir} {front : List Step} {l : Location} :
    d.goto w (front ++ [.stay]) = .ok l ↔
      d.goto w front = .ok l ∧ d.tree.find? l = some .directory := by
  -- staying asks for a directory, while an open way may end at any place
  induction front generalizing w with
  | nil =>
    rw [List.nil_append, goto_cons_eq_ok_iff]
    cases w with
    | removed depth above => cases depth <;> simp [goto, walkOutside, WorkingDir.step]
    | standing l' =>
      simp only [refusal?_standing_eq_none_iff, WorkingDir.step, Option.some.injEq,
        exists_eq_left', goto_standing, walk_nil, Except.ok.injEq]
      constructor
      · rintro ⟨⟨hdir, -⟩, rfl⟩
        exact ⟨rfl, hdir⟩
      · rintro ⟨rfl, hdir⟩
        exact ⟨⟨hdir, by simp⟩, rfl⟩
  | cons s front ih =>
    rw [List.cons_append, goto_cons_eq_ok_iff, goto_cons_eq_ok_iff]
    simp only [ih]
    grind

/-- A name at the end of an open way asks for a directory in front of it, and for nothing behind. -/
theorem goto_concat_down_eq_ok_iff {d : Disk} {w : WorkingDir} {front : List Step} {name : String}
    {k : Location} : d.goto w (front ++ [.down name]) = .ok k ↔
      d.takesName name = true ∧
        ∃ l, d.goto w front = .ok l ∧ d.tree.find? l = some .directory ∧ k = name :: l := by
  induction front generalizing w with
  | nil =>
    rw [List.nil_append, goto_cons_eq_ok_iff]
    cases w with
    | removed depth above => cases depth <;> simp [goto, walkOutside, WorkingDir.step]
    | standing l' =>
      simp only [refusal?_standing_eq_none_iff, WorkingDir.step, Option.some.injEq,
        exists_eq_left', goto_standing, walk_nil, Except.ok.injEq]
      constructor
      · rintro ⟨⟨hdir, hname⟩, rfl⟩
        exact ⟨hname name rfl, hdir, rfl⟩
      · rintro ⟨hname, hdir, rfl⟩
        exact ⟨⟨hdir, by simpa using hname⟩, rfl⟩
  | cons s front ih =>
    rw [List.cons_append, goto_cons_eq_ok_iff]
    simp only [ih, goto_cons_eq_ok_iff]
    grind

variable {d e : Disk} {p : Path} {l k : Location}

/-- The empty path leads nowhere. -/
theorem ne_empty_of_locate (h : d.locate p = .ok l) : p ≠ "" := by
  rintro rfl
  exact absurd h (by simp [locate])

/-- A path leads to a place if it can be followed and its way is open. -/
theorem locate_eq_ok_iff (hp : p ≠ "") :
    d.locate p = .ok l ↔ d.takesPath p = true ∧ d.goto (d.origin p) p.steps = .ok l := by
  rw [locate_eq d hp]
  split <;> simp_all

theorem goto_of_locate (h : d.locate p = .ok l) : d.goto (d.origin p) p.steps = .ok l :=
  ((locate_eq_ok_iff (ne_empty_of_locate h)).1 h).2

/-- A path that leads somewhere leads where its names lead. -/
theorem lead?_of_locate (h : d.locate p = .ok l) : d.lead? p = some l :=
  lead_of_goto (goto_of_locate h)

/-- A path that leads out of the tree leads to no place by its names either. -/
theorem lead?_of_outside (h : d.locate p = .error .outside) : d.lead? p = none := by
  by_cases hp : p = ""
  · rw [hp] at h
    exact absurd h (by simp [locate])
  · rw [locate_eq d hp] at h
    split at h
    · exact lead_of_outside h
    · exact absurd h (by simp)

/-- A path leads out of the tree if its steps do. -/
theorem locate_eq_outside_iff (hp : p ≠ "") :
    d.locate p = .error .outside ↔
      d.takesPath p = true ∧ d.goto (d.origin p) p.steps = .error .outside := by
  rw [locate_eq d hp]
  split <;> simp_all

/-- A path that leads to a directory out of the tree does so whatever is in it. -/
theorem outside_congr (hlim : SameLimits d e) (horigin : e.origin p = d.origin p)
    (h : d.locate p = .error .outside) : e.locate p = .error .outside := by
  have hp : p ≠ "" := by
    rintro rfl
    exact absurd h (by simp [locate])
  rw [locate_eq_outside_iff hp, goto_eq_outside_iff] at h ⊢
  rwa [horigin, ← hlim.takesPath_eq]

/-- On the way of a path to a directory there are directories only. -/
theorem directory_of_locate (h : d.locate p = .ok l) (hl : d.tree.find? l = some .directory)
    (hk : k ∈ d.visits p) : d.tree.find? k = some .directory := by
  by_cases hkl : k = l
  · rw [hkl, hl]
  · exact directory_of_goto (goto_of_locate h) hk hkl

/-- A path leads where it led while the directories on its way stay. -/
theorem locate_mono (hlim : SameLimits d e) (horigin : e.origin p = d.origin p)
    (h : d.locate p = .ok l)
    (hdirs : ∀ k ∈ d.visits p, d.tree.find? k = some .directory →
      e.tree.find? k = some .directory) : e.locate p = .ok l := by
  have hp := ne_empty_of_locate h
  rw [locate_eq_ok_iff hp] at h ⊢
  rw [horigin, ← hlim.takesPath_eq]
  exact ⟨h.1, goto_mono hlim h.2 hdirs⟩

/-- Where a path leads depends on the places on its way alone. -/
theorem locate_congr (hlim : SameLimits d e) (horigin : d.origin p = e.origin p)
    (hview : ∀ k ∈ d.visits p, d.tree.find? k = e.tree.find? k) : d.locate p = e.locate p := by
  by_cases hp : p = ""
  · rw [locate, locate, if_pos hp, if_pos hp]
  · rw [locate_eq d hp, locate_eq e hp, hlim.takesPath_eq, ← horigin, goto_congr hlim hview]

/-- A text is taken if it is not too long and has no null character. -/
theorem isText_iff {bound : Option Nat} {text : String} : isText bound text = true ↔
    bound.all (text.utf8ByteSize ≤ ·) = true ∧ '\x00' ∉ text.toList := by
  simp [isText]

/-- A shorter text with no other characters is taken where the longer one is. -/
theorem isText_mono {bound : Option Nat} {short long : String}
    (hsize : short.utf8ByteSize ≤ long.utf8ByteSize)
    (hnull : '\x00' ∈ short.toList → '\x00' ∈ long.toList) (h : isText bound long = true) :
    isText bound short = true := by
  rw [isText_iff] at h ⊢
  refine ⟨?_, fun hmem => h.2 (hnull hmem)⟩
  cases bound with
  | none => rfl
  | some n =>
    have hlong := h.1
    simp only [Option.all_some, decide_eq_true_eq] at hlong ⊢
    omega

/-- Where the path to an entry may be followed, so may the path to its directory. -/
theorem takesPath_of_join {dir : Path} {x : String} (hx : Path.IsName x)
    (h : d.takesPath (dir.join x) = true) : d.takesPath dir = true :=
  isText_mono (Path.utf8ByteSize_le_join hx.not_isAbsolute)
    (fun hmem => (Path.mem_join_iff hx.not_isAbsolute (by decide)).2 (.inl hmem)) h

/-- Where a path may be followed to an entry of a directory in a directory, the path to an entry of
that name in the outer one may be followed too. -/
theorem takesPath_join_of_join {dir : Path} {name x : String} (hname : Path.IsName name)
    (hx : Path.IsName x) (h : d.takesPath ((dir.join name).join x) = true) :
    d.takesPath (dir.join x) = true := by
  refine isText_mono (Path.utf8ByteSize_join_le hx.not_isAbsolute hname) (fun hmem => ?_) h
  rw [Path.mem_join_iff hx.not_isAbsolute (by decide)] at hmem ⊢
  rw [Path.mem_join_iff hname.not_isAbsolute (by decide)]
  exact hmem.imp_left .inl

section Join

variable {dir : Path} {x : String} (hdir : dir ≠ "") (hx : Path.IsName x)

include hdir hx

/-- The path to an entry begins where the path to its directory begins. -/
theorem origin_join (d : Disk) : d.origin (dir.join x) = d.origin dir := by
  rw [origin, origin, Path.isAbsolute_join hdir hx]

/-- The path to an entry leads to it, in the directory to which the path before leads. -/
theorem lead?_join (d : Disk) : d.lead? (dir.join x) = (d.lead? dir).map (x :: ·) := by
  obtain ⟨front, hjoin, hfront⟩ := Path.exists_steps_join hdir hx
  rw [lead?, lead?, origin_join hdir hx, hjoin, WorkingDir.lead_concat_down]
  rcases hfront with h | h
  · rw [h]
  · rw [h, WorkingDir.lead_concat_stay]

/-- The way to an entry of a directory is the way to the directory, and then the entry. -/
theorem mem_visits_join : k ∈ d.visits (dir.join x) ↔
    k ∈ d.visits dir ∨ d.lead? (dir.join x) = some k := by
  obtain ⟨front, hjoin, hfront⟩ := Path.exists_steps_join hdir hx
  rw [visits, visits, lead?, origin_join hdir hx, hjoin, WorkingDir.mem_visits_concat]
  rcases hfront with h | h
  · rw [h]
  · rw [h, WorkingDir.mem_visits_concat_stay]

/-- A path that leads somewhere through a name behind a directory leads from there to the entry of
that name. -/
theorem locate_join_eq_ok_iff : d.locate (dir.join x) = .ok k ↔
    d.takesPath (dir.join x) = true ∧ d.takesName x = true ∧
      ∃ l, d.locate dir = .ok l ∧ d.tree.find? l = some .directory ∧ k = x :: l := by
  obtain ⟨front, hjoin, hfront⟩ := Path.exists_steps_join hdir hx
  rw [locate_eq_ok_iff (Path.join_ne_empty dir hx), origin_join hdir hx, hjoin,
    goto_concat_down_eq_ok_iff]
  refine and_congr_right fun htakes => and_congr_right fun _ => exists_congr fun l => ?_
  rw [locate_eq_ok_iff hdir]
  have htakes := takesPath_of_join hx htakes
  -- a slash at the end of the path asks for a directory, as the name behind it does
  rcases hfront with h | h
  · rw [h]
    simp only [htakes, true_and]
  · rw [h, goto_concat_stay_eq_ok_iff]
    simp only [htakes, true_and]
    constructor
    · rintro ⟨h, hl, rfl⟩
      exact ⟨⟨h, hl⟩, hl, rfl⟩
    · rintro ⟨⟨h, -⟩, hl, rfl⟩
      exact ⟨h, hl, rfl⟩

end Join

/-! ### Ways within ways -/

/-- What leads to a path begins where the path begins. -/
theorem origin_parent? {q : Path} (h : p.parent? = some q) (d : Disk) :
    d.origin q = d.origin p := by
  rw [origin, origin, (Path.course_parent? h).1]

/-- The steps at the end of a path that stay pass no further place. -/
theorem mem_visits_iff_course : k ∈ d.visits p ↔ k ∈ (d.origin p).visits p.course :=
  WorkingDir.mem_visits_trim.symm

/-- The way of a path is the way to what leads to it, and then the place to which it leads. -/
theorem mem_visits_iff_parent? {q : Path} (h : p.parent? = some q) :
    k ∈ d.visits p ↔ k ∈ d.visits q ∨ d.lead? p = some k := by
  rw [mem_visits_iff_course, mem_visits_iff_course, origin_parent? h, (Path.course_parent? h).2,
    WorkingDir.mem_visits_trim, lead?, ← WorkingDir.lead_trim, ← Path.course]
  cases hcourse : p.course using List.reverseRecOn with
  | nil => exact ⟨.inl, fun hk => hk.elim id WorkingDir.mem_visits_of_lead⟩
  | append_singleton front s => rw [List.dropLast_concat, WorkingDir.mem_visits_concat]

/-- What is on the way to what leads to a path is on the way of the path. -/
theorem visits_parent? {q : Path} (h : p.parent? = some q) (hk : k ∈ d.visits q) :
    k ∈ d.visits p :=
  (mem_visits_iff_parent? h).2 (.inl hk)

/-- What leads to an entry of a directory lies on the way to the directory. -/
theorem visits_of_parent?_join {dir q : Path} {x : String} (hdir : dir ≠ "") (hx : Path.IsName x)
    (h : (dir.join x).parent? = some q) (hk : k ∈ d.visits q) : k ∈ d.visits dir := by
  obtain ⟨front, hjoin, hfront⟩ := Path.exists_steps_join hdir hx
  have hcourse : (dir.join x).course = front ++ [.down x] := by
    rw [Path.course, hjoin, Path.trim_concat (by simp)]
  rw [mem_visits_iff_course, origin_parent? h, (Path.course_parent? h).2, hcourse,
    List.dropLast_concat, WorkingDir.mem_visits_trim, origin_join hdir hx] at hk
  rw [visits]
  rcases hfront with h | h
  · rwa [h]
  · rw [h]
    exact WorkingDir.mem_visits_concat_stay.2 hk

/-- A way on which one stays at the end is open without that. -/
theorem goto_of_append_stays {w : WorkingDir} {front stays : List Step}
    (hstays : ∀ s ∈ stays, s = .stay) (h : d.goto w (front ++ stays) = .ok l) :
    d.goto w front = .ok l := by
  induction stays using List.reverseRecOn with
  | nil => rwa [List.append_nil] at h
  | append_singleton stays s ih =>
    obtain rfl : s = .stay := hstays s (by simp)
    rw [← List.append_assoc] at h
    exact ih (fun s hs => hstays s (by simp [hs])) (goto_concat_stay_eq_ok_iff.1 h).1

/-- To stay where one has come to asks for nothing but a directory. -/
theorem goto_append_stays {w : WorkingDir} {stays : List Step} (front : List Step)
    (hstays : ∀ s ∈ stays, s = .stay) (hl : d.tree.find? l = some .directory) :
    d.goto w (front ++ stays) = .ok l ↔ d.goto w front = .ok l := by
  induction stays generalizing front with
  | nil => rw [List.append_nil]
  | cons s stays ih =>
    obtain rfl : s = .stay := hstays s (by simp)
    have hrest := ih (front ++ [.stay]) fun s hs => hstays s (by simp [hs])
    rw [List.append_assoc, List.singleton_append] at hrest
    rw [hrest, goto_concat_stay_eq_ok_iff]
    simp only [hl, and_true]

/-- Where a path may be followed, so may what leads to it. -/
theorem takesPath_parent? {q : Path} (hq : p.parent? = some q) (h : d.takesPath p = true) :
    d.takesPath q = true := by
  obtain ⟨rest, rfl⟩ := Path.exists_eq_parent?_append hq
  refine isText_mono ?_ (fun hmem => ?_) h
  · rw [String.utf8ByteSize_append]
    omega
  · rw [String.toList_append]
    exact List.mem_append_left _ hmem

/-- Where a path may be followed, it may be without its end slashes. -/
theorem takesPath_withoutEndSlashes (h : d.takesPath p = true) :
    d.takesPath p.withoutEndSlashes = true := by
  obtain ⟨n, hn⟩ := Path.exists_withoutEndSlashes p
  have htext : p.toList =
      p.withoutEndSlashes.toList ++ (String.ofList (List.replicate n '/')).toList := by
    rw [← String.toList_append, ← hn]
  refine isText_mono ?_ (fun hmem => ?_) h
  · have hsize := congrArg String.utf8ByteSize hn
    rw [String.utf8ByteSize_append] at hsize
    omega
  · rw [htext]
    exact List.mem_append_left _ hmem

/-- Where a directory is put in place, the way is that of the path, perhaps without what its end
slashes ask for. -/
theorem exists_locateDir (p : Path) : ∃ q : Path,
    (∀ e : Disk, e.origin q = e.origin p) ∧ (∀ e : Disk, ∀ k ∈ e.visits q, k ∈ e.visits p) ∧
    (∀ e : Disk, e.locateDir p = if e.takesPath p then e.locate q else .error .badName) ∧
    ∀ (e : Disk) (l : Location), e.takesPath p = true → e.tree.find? l = some .directory →
      (e.locate p = .ok l ↔ e.locate q = .ok l) := by
  -- nothing is left of a path of slashes alone, and such a path is followed as it is
  by_cases hempty : p.withoutEndSlashes = ""
  · refine ⟨p, fun _ => rfl, fun _ _ hk => hk, fun e => ?_, fun _ _ _ _ => Iff.rfl⟩
    rw [locateDir, if_pos hempty]
    by_cases h : e.takesPath p = true <;> simp [h]
  · obtain ⟨habs, stays, hsteps, hstays⟩ := Path.exists_steps_withoutEndSlashes hempty
    have horigin (e : Disk) : e.origin p.withoutEndSlashes = e.origin p := by
      rw [origin, origin, habs]
    refine ⟨p.withoutEndSlashes, horigin, fun e k hk => ?_, fun e => ?_, fun e l htakes hl => ?_⟩
    · rw [visits, horigin] at hk
      rw [visits, hsteps]
      exact WorkingDir.mem_visits_append hk
    · rw [locateDir, if_neg hempty]
      by_cases h : e.takesPath p = true <;> simp [h]
    · have hp : p ≠ "" := by
        rintro rfl
        exact hempty rfl
      have hshort := takesPath_withoutEndSlashes htakes
      rw [locate_eq_ok_iff hp, locate_eq_ok_iff hempty, hsteps, horigin,
        goto_append_stays _ hstays hl]
      simp only [htakes, hshort]

/-- Where a path leads does not depend on the slashes at its end, as long as it leads somewhere. -/
theorem locateDir_of_locate (h : d.locate p = .ok l) : d.locateDir p = .ok l := by
  have hp := ne_empty_of_locate h
  obtain ⟨htakes, hgoto⟩ := (locate_eq_ok_iff hp).1 h
  rw [locateDir, htakes]
  by_cases hempty : p.withoutEndSlashes = ""
  · simpa [hempty] using h
  · obtain ⟨habs, stays, hsteps, hstays⟩ := Path.exists_steps_withoutEndSlashes hempty
    have horigin : d.origin p.withoutEndSlashes = d.origin p := by rw [origin, origin, habs]
    rw [hsteps] at hgoto
    have hshort : d.locate p.withoutEndSlashes = .ok l := by
      rw [locate_eq_ok_iff hempty, horigin]
      exact ⟨takesPath_withoutEndSlashes htakes, goto_of_append_stays hstays hgoto⟩
    simpa [hempty] using hshort

/-- A path that leads to a directory out of the tree passes no place of it. -/
theorem visits_of_outside (h : d.locate p = .error .outside) : d.visits p = [] := by
  have hp : p ≠ "" := by
    rintro rfl
    exact absurd h (by simp [locate])
  exact (goto_eq_outside_iff.1 ((locate_eq_outside_iff hp).1 h).2).visits

/-- A path that leads out of the tree does so without its end slashes. -/
theorem locateDir_of_outside (h : d.locate p = .error .outside) :
    d.locateDir p = .error .outside := by
  have hp : p ≠ "" := by
    rintro rfl
    exact absurd h (by simp [locate])
  obtain ⟨htakes, hgoto⟩ := (locate_eq_outside_iff hp).1 h
  rw [locateDir, htakes]
  by_cases hempty : p.withoutEndSlashes = ""
  · simpa [hempty] using h
  · obtain ⟨habs, stays, hsteps, -⟩ := Path.exists_steps_withoutEndSlashes hempty
    have horigin : d.origin p.withoutEndSlashes = d.origin p := by rw [origin, origin, habs]
    have hshort : d.locate p.withoutEndSlashes = .error .outside := by
      rw [locate_eq_outside_iff hempty, goto_eq_outside_iff, horigin]
      rw [goto_eq_outside_iff, hsteps] at hgoto
      refine ⟨takesPath_withoutEndSlashes htakes, ?_⟩
      exact hgoto.of_append
    simpa [hempty] using hshort

end Disk

end FlatWeights
