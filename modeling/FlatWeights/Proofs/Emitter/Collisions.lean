import FlatWeights.Proofs.Emitter.Calls
import Mathlib.Data.List.Induction

/-!
Names that are given more than once. In a run in which every tensor is either staged or turned away
before anything is written, a tensor is a collision exactly if its name was accepted before and
names may not collide; what is staged and later published is the first tensor of each name where
they may not, and the last one where they may (`chosen?`).

`Logged` ties the calls with their answers to the emitter and to the disk. It is kept by one more
call (`Logged.concat`), so the run is an induction from the end of the calls.
-/

set_option autoImplicit false

namespace FlatWeights

open Emitter

/-! ## Answers -/

/-- A failure of the kinds that turn a tensor away before anything is written. -/
def Failure.turnsAway : Failure → Bool
  | .write _ (.invalidName _) => true
  | .write _ (.tooLongForHeader _) => true
  | .collision _ => true
  | _ => false

/-- An answer for a tensor that was staged, or else turned away. -/
def settled : Except Stop Path → Bool
  | .ok _ => true
  | .error (.failed failure) => failure.turnsAway
  | .error .overflow => false

/-- A call that succeeds is settled. -/
theorem settled_of_isOk {answer : Except Stop Path} (h : answer.isOk = true) :
    settled answer = true := by
  cases answer with
  | ok p => rfl
  | error stop => exact absurd h (by simp [Except.isOk, Except.toBool])

namespace Emitter

/-- The tensors that were staged, in order. -/
def accepted (log : List (OutputTensor × Except Stop Path)) : List OutputTensor :=
  (log.filter fun call => call.2.isOk).map (·.1)

/-- The tensor that counts for a name: the first one that could be staged where names may not
collide, and the last one where they may. -/
def chosen? (policy : CollisionPolicy) (calls : List OutputTensor) (name : String) :
    Option OutputTensor :=
  let counts (t : OutputTensor) : Bool := t.Acceptable ∧ t.name = name
  match policy with
  | .error => calls.find? counts
  | .warn => calls.reverse.find? counts

variable {policy : CollisionPolicy} {calls : List OutputTensor} {t : OutputTensor}
  {name : String} {log : List (OutputTensor × Except Stop Path)} {emitter : Emitter}

/-- A call that succeeds is accepted. -/
theorem accepted_concat_ok (log : List (OutputTensor × Except Stop Path)) (t : OutputTensor)
    (p : Path) : accepted (log ++ [(t, .ok p)]) = accepted log ++ [t] := by
  simp [accepted, Except.isOk, Except.toBool]

/-- A call that fails is not. -/
theorem accepted_concat_error (log : List (OutputTensor × Except Stop Path)) (t : OutputTensor)
    (stop : Stop) : accepted (log ++ [(t, .error stop)]) = accepted log := by
  simp [accepted, Except.isOk, Except.toBool]

/-- A tensor that does not count for a name changes nothing for it. -/
theorem chosen?_concat_of_not (h : ¬ (t.Acceptable ∧ t.name = name)) :
    chosen? policy (calls ++ [t]) name = chosen? policy calls name := by
  unfold chosen?
  cases policy with
  | error => simp [List.find?_append, h]
  | warn => simp [h]

/-- Where names may collide, one more tensor takes the place of all before it. -/
theorem chosen?_warn_concat (h : t.Acceptable) :
    chosen? .warn (calls ++ [t]) t.name = some t := by
  unfold chosen?
  simp [h]

/-- Where names may not collide, one more tensor counts only if none did before. -/
theorem chosen?_error_concat (h : t.Acceptable) :
    chosen? .error (calls ++ [t]) t.name = (chosen? .error calls t.name).or (some t) := by
  unfold chosen?
  simp [List.find?_append, h]

end Emitter

namespace Disk

variable {d d₁ e : Disk} {base p : Path} {buffer : Nat} {output : OutputSettings}
  {l k : Location}
  {emitter emitter' : Emitter} {t : OutputTensor} {outs calls : List OutputTensor}
  {log : List (OutputTensor × Except Stop Path)} {name : String} {pieces : List Bytes}

/-! ## Calls that are settled -/

/-- A file that could not be written was not turned away. -/
theorem not_turnsAway_of_write {y : String} {failure : Failure} (hout : outputPath base output ≠ "")
    (hy : Path.IsName y) (hfull : base.join p = (stagingPath base output).join y)
    (h : (d.outcome ((Storage.below base buffer).write p pieces)).1 = .error (.failed failure)) :
    failure.turnsAway = false := by
  rw [outcome_write_eq isName_staging hout hy hfull] at h
  split at h
  · split at h
    · rw [filled] at h
      split at h <;> exact absurd h (by simp)
    · obtain rfl := Stop.failed.inj (Except.error.inj h)
      rfl
  · obtain rfl := Stop.failed.inj (Except.error.inj h)
    rfl

/-- A file that could not be staged was not turned away. -/
theorem not_turnsAway_of_stage {failure : Failure} (hout : outputPath base emitter.output ≠ "")
    (hname : validOutputName name = true)
    (h : (d.emitted emitter (stage (Storage.below base buffer) name pieces)).1.1 =
      .error (.failed failure)) : failure.turnsAway = false := by
  -- a file that is written atomically fails to be written or to be renamed, another one to be
  -- written
  rw [emitted_stage] at h
  split at h
  · have hfull := join_tempPath base emitter.output name
    cases hwrite : d.outcome
      ((Storage.below base buffer).write (tempPath emitter.output name) pieces) with
    | mk result e =>
    cases result with
    | error stop =>
      obtain rfl : stop = .failed failure := by
        rw [hwrite] at h
        cases stop <;> exact Except.error.inj h
      exact not_turnsAway_of_write hout (isName_tempName hname) hfull (by rw [hwrite])
    | ok _ =>
      simp only [hwrite, outcome_rename hfull (join_stagedPath base emitter.output hname)] at h
      split at h
      · exact absurd h (by simp)
      · obtain rfl := Stop.failed.inj (Except.error.inj h)
        rfl
  · simp only at h
    exact not_turnsAway_of_write hout (isName_fileName hname)
      (join_stagedPath base emitter.output hname) h

/-- A call that is settled has staged its tensor, or there was an objection to it. -/
theorem ok_or_objection_of_settled (hout : outputPath base emitter.output ≠ "")
    (h : settled (d.emitted emitter (emit (Storage.below base buffer) t)).1.1 = true) :
    (∃ p, (d.emitted emitter (emit (Storage.below base buffer) t)).1.1 = .ok p) ∨
      ∃ failure, emitter.objection? t = some failure := by
  cases hobjection : emitter.objection? t with
  | some failure => exact .inr ⟨failure, rfl⟩
  | none =>
  left
  have hname := (objection?_eq_none_iff.1 hobjection).1.1
  obtain ⟨header, -, ⟨stop, e, hstage, hemit⟩ | ⟨e, -, hemit⟩⟩ :=
    stopped_or_recorded d base buffer hobjection
  · -- what stops the staging is none of the failures that turn a tensor away
    rw [hemit] at h
    cases stop with
    | overflow => exact absurd h (by simp [settled])
    | failed failure =>
      have hnot := not_turnsAway_of_stage (by rwa [noting_output]) hname (congrArg (·.1.1) hstage)
      exact absurd h (by simp [settled, hnot])
  · rw [hemit, recorded] at h ⊢
    cases htotal : (d.noting (Storage.below base buffer) emitter t.name).total? header with
    | none =>
      rw [htotal] at h
      exact absurd h (by simp [settled])
    | some total => exact ⟨_, rfl⟩

/-- A call is answered as a collision if that is the objection to it, and not otherwise. -/
theorem collision_iff (hout : outputPath base emitter.output ≠ "") :
    (d.emitted emitter (emit (Storage.below base buffer) t)).1.1 =
        .error (.failed (.collision t.name)) ↔
      (t.Acceptable ∧ t.name ∈ emitter.written.toList) ∧ emitter.output.onCollision = .error := by
  have hiff : emitter.objection? t = some (.collision t.name) ↔
      (t.Acceptable ∧ t.name ∈ emitter.written.toList) ∧
        emitter.output.onCollision = .error := by
    rw [objection?_eq_collision_iff, not_mayWrite_iff, NameSet.contains_iff]
    tauto
  rw [← hiff]
  constructor
  · -- what is answered with a collision is settled, and a settled call is answered with its
    -- objection
    intro h
    have hsettled :
        settled (d.emitted emitter (emit (Storage.below base buffer) t)).1.1 = true := by
      rw [h]
      rfl
    rcases ok_or_objection_of_settled hout hsettled with ⟨p, hok⟩ | ⟨failure, hobjection⟩
    · exact absurd (h.symm.trans hok) (by simp)
    · rw [emitted_emit_of_objection hobjection] at h
      rw [hobjection, Stop.failed.inj (Except.error.inj h)]
  · intro h
    rw [emitted_emit_of_objection h]

/-- A call that has staged its tensor has laid its file over the staging directory. -/
theorem staged_of_emit_ok (hout : outputPath base output ≠ "")
    (h₁ : d₁.DirAt (stagingPath base output) (".staging" :: l))
    (hinside : ∀ x content, d₁.tree.find? (x :: ".staging" :: l) ≠ some (.file content))
    (h : Staged base output l d₁ outs d) (houtput : emitter.output = output)
    (hok : d.emitted emitter (emit (Storage.below base buffer) t) = ((.ok p, emitter'), e)) :
    Staged base output l d₁ (outs ++ [t]) e := by
  by_cases hcan : ∃ next, emitter.bare.accept? t = some next ∧ d₁.Fits base buffer output l t.name
  · obtain ⟨next, hnext, hfits⟩ := hcan
    obtain ⟨_, e', hemit, -, hstaged⟩ := emit_of_accepted hout h₁ hinside h houtput hnext hfits
    obtain ⟨-, rfl⟩ := Prod.mk.inj (hemit.symm.trans hok)
    exact hstaged
  · obtain ⟨stop, _, _, hemit, -⟩ := emit_of_refused hout h₁ hinside h houtput
      fun next hnext hfits => hcan ⟨next, hnext, hfits⟩
    exact absurd (Prod.mk.inj (Prod.mk.inj (hemit.symm.trans hok)).1).1 (by simp)

/-! ## The log of a run -/

/-- What the calls of a run and their answers say about the emitter and the disk. -/
structure Logged (base : Path) (output : OutputSettings) (l : Location) (d₁ : Disk)
    (log : List (OutputTensor × Except Stop Path)) (emitter : Emitter) (d : Disk) : Prop where
  staged : Staged base output l d₁ (accepted log) d
  settings : emitter.output = output
  written : ∀ n, n ∈ emitter.written.toList ↔ ∃ t ∈ accepted log, t.name = n
  chosen : ∀ n, lastOutput? (accepted log) (fileName n) =
    chosen? output.onCollision (log.map (·.1)) n

/-- A name was written exactly if a tensor counts for it. -/
theorem Logged.written_iff (h : Logged base output l d₁ log emitter d) :
    name ∈ emitter.written.toList ↔
      ∃ t, chosen? output.onCollision (log.map (·.1)) name = some t := by
  rw [h.written, ← h.chosen]
  constructor
  · rintro ⟨t, ht, rfl⟩
    exact exists_lastOutput? ht
  · rintro ⟨t, ht⟩
    obtain ⟨hmem, hname⟩ := exists_of_lastOutput? ht
    exact ⟨t, hmem, fileName_injective hname⟩

/-- The tensor that counts for a name once one more is staged. -/
theorem Logged.chosen_staged (h : Logged base output l d₁ log emitter d)
    (hacceptable : t.Acceptable) (hmay : emitter.MayWrite t.name) (n : String) :
    lastOutput? (accepted log ++ [t]) (fileName n) =
      chosen? output.onCollision (log.map (·.1) ++ [t]) n := by
  rw [lastOutput?_concat]
  by_cases hn : t.name = n
  · subst hn
    rw [if_pos rfl]
    cases hpolicy : output.onCollision with
    | warn => rw [chosen?_warn_concat hacceptable]
    | error =>
      -- the name is new, for a name that was written may not be written again
      have hnone : chosen? .error (log.map (·.1)) t.name = none := by
        by_contra hsome
        have hmem := h.written_iff.2 (hpolicy ▸ Option.ne_none_iff_exists'.1 hsome)
        have hwarn := hmay (NameSet.contains_iff.2 hmem)
        rw [h.settings, hpolicy] at hwarn
        exact absurd hwarn (by simp)
      rw [chosen?_error_concat hacceptable, hnone]
      rfl
  · rw [if_neg fun heq => hn (fileName_injective heq), h.chosen,
      chosen?_concat_of_not fun hcounts => hn hcounts.2]

/-- A tensor that is turned away counts for no name. -/
theorem Logged.chosen_turned_away {failure : Failure}
    (h : Logged base output l d₁ log emitter d) (hobjection : emitter.objection? t = some failure)
    (n : String) :
    chosen? output.onCollision (log.map (·.1)) n =
      chosen? output.onCollision (log.map (·.1) ++ [t]) n := by
  by_cases hcounts : t.Acceptable ∧ t.name = n
  · -- the objection can only be a collision, with a tensor that counts already
    obtain ⟨hacceptable, rfl⟩ := hcounts
    have hmay : ¬ emitter.MayWrite t.name := by
      intro hmay
      rw [objection?_eq_none_iff.2 ⟨hacceptable, hmay⟩] at hobjection
      exact absurd hobjection (by simp)
    obtain ⟨hwritten, hpolicy⟩ := not_mayWrite_iff.1 hmay
    rw [h.settings] at hpolicy
    obtain ⟨winner, hwinner⟩ := h.written_iff.1 (NameSet.contains_iff.1 hwritten)
    rw [hpolicy] at hwinner ⊢
    rw [chosen?_error_concat hacceptable, hwinner]
    rfl
  · rw [chosen?_concat_of_not hcounts]

/-- One more call that has staged its tensor. -/
theorem Logged.concat_ok (hout : outputPath base output ≠ "")
    (h₁ : d₁.DirAt (stagingPath base output) (".staging" :: l))
    (hinside : ∀ x content, d₁.tree.find? (x :: ".staging" :: l) ≠ some (.file content))
    (h : Logged base output l d₁ log emitter d)
    (hok : d.emitted emitter (emit (Storage.below base buffer) t) = ((.ok p, emitter'), e)) :
    Logged base output l d₁ (log ++ [(t, .ok p)]) emitter' e := by
  obtain ⟨hopen, header, total, -, -, hemitter⟩ := emitter_of_ok hok
  obtain ⟨hacceptable, hmay⟩ := objection?_eq_none_iff.1 hopen
  have hwritten : emitter'.written = emitter.noted t.name := by
    rw [hemitter]
    exact noting_written t.name
  have houtput : emitter'.output = output := by
    rw [hemitter]
    exact (noting_output t.name).trans h.settings
  refine ⟨?_, houtput, ?_, ?_⟩
  · rw [accepted_concat_ok]
    exact staged_of_emit_ok hout h₁ hinside h.staged h.settings hok
  · intro n
    rw [hwritten, accepted_concat_ok, mem_noted, h.written]
    simp only [List.mem_append, List.mem_singleton]
    constructor
    · rintro (rfl | ⟨t', ht', rfl⟩)
      · exact ⟨t, .inr rfl, rfl⟩
      · exact ⟨t', .inl ht', rfl⟩
    · rintro ⟨t', ht' | rfl, rfl⟩
      · exact .inr ⟨t', ht', rfl⟩
      · exact .inl rfl
  · intro n
    rw [accepted_concat_ok, List.map_append]
    exact h.chosen_staged hacceptable hmay n

/-- One more call that was turned away. -/
theorem Logged.concat_error {failure : Failure} (h : Logged base output l d₁ log emitter d)
    (hobjection : emitter.objection? t = some failure) (stop : Stop) :
    Logged base output l d₁ (log ++ [(t, .error stop)]) emitter d := by
  refine ⟨?_, h.settings, ?_, ?_⟩
  · rw [accepted_concat_error]
    exact h.staged
  · intro n
    rw [accepted_concat_error]
    exact h.written n
  · intro n
    rw [accepted_concat_error, h.chosen, List.map_append]
    exact h.chosen_turned_away hobjection n

/-- **The step.** One more call that is settled. -/
theorem Logged.concat (hout : outputPath base output ≠ "")
    (h₁ : d₁.DirAt (stagingPath base output) (".staging" :: l))
    (hinside : ∀ x content, d₁.tree.find? (x :: ".staging" :: l) ≠ some (.file content))
    (h : Logged base output l d₁ log emitter d)
    (hsettled : settled (d.emitted emitter (emit (Storage.below base buffer) t)).1.1 = true) :
    Logged base output l d₁
      (log ++ [(t, (d.emitted emitter (emit (Storage.below base buffer) t)).1.1)])
      (d.emitted emitter (emit (Storage.below base buffer) t)).1.2
      (d.emitted emitter (emit (Storage.below base buffer) t)).2 := by
  have hout' : outputPath base emitter.output ≠ "" := by rwa [h.settings]
  rcases ok_or_objection_of_settled hout' hsettled with ⟨p, hok⟩ | ⟨failure, hobjection⟩
  · rw [hok]
    exact h.concat_ok hout h₁ hinside (Prod.ext (Prod.ext hok rfl) rfl)
  · rw [emitted_emit_of_objection hobjection]
    exact h.concat_error hobjection _

/-- **The run.** The log of any number of calls that are settled. -/
theorem logged_offered (hout : outputPath base output ≠ "")
    (h₁ : d₁.DirAt (stagingPath base output) (".staging" :: l))
    (hinside : ∀ x content, d₁.tree.find? (x :: ".staging" :: l) ≠ some (.file content))
    (hsettled : ∀ call ∈ (d₁.offered (Storage.below base buffer) { output } calls).1.1,
      settled call.2 = true) :
    Logged base output l d₁ (d₁.offered (Storage.below base buffer) { output } calls).1.1
      (d₁.offered (Storage.below base buffer) { output } calls).1.2
      (d₁.offered (Storage.below base buffer) { output } calls).2 := by
  -- calls are added at the end, where the log grows
  induction calls using List.reverseRecOn with
  | nil =>
    refine ⟨staged_nil d₁, rfl, ?_, ?_⟩
    · intro n
      simp [accepted, NameSet.toList_empty]
    · intro n
      unfold chosen?
      cases output.onCollision <;> rfl
  | append_singleton calls t ih =>
    rw [offered_concat] at hsettled ⊢
    have hbefore := ih fun call hcall => hsettled call (List.mem_append_left _ hcall)
    apply hbefore.concat hout h₁ hinside
    exact hsettled _ (List.mem_append_right _ (List.mem_singleton_self _))

/-- The log has one entry for each call. -/
theorem map_fst_offered (storage : Storage (StateM Disk)) (emitter : Emitter) (d : Disk)
    (calls : List OutputTensor) : (d.offered storage emitter calls).1.1.map (·.1) = calls := by
  induction calls generalizing d emitter with
  | nil => rfl
  | cons t calls ih =>
    rw [offered_cons, List.map_cons, ih]

/-- Calls that were turned away leave no trace: the emitter and the disk are the same without them.
-/
theorem offered_accepted (hout : outputPath base emitter.output ≠ "")
    (hsettled : ∀ call ∈ (d.offered (Storage.below base buffer) emitter calls).1.1,
      settled call.2 = true) :
    (d.offered (Storage.below base buffer) emitter
        (accepted (d.offered (Storage.below base buffer) emitter calls).1.1)).1.2 =
        (d.offered (Storage.below base buffer) emitter calls).1.2 ∧
      (d.offered (Storage.below base buffer) emitter
        (accepted (d.offered (Storage.below base buffer) emitter calls).1.1)).2 =
        (d.offered (Storage.below base buffer) emitter calls).2 := by
  induction calls using List.reverseRecOn with
  | nil => exact ⟨rfl, rfl⟩
  | append_singleton calls t ih =>
    rw [offered_concat] at hsettled ⊢
    obtain ⟨hemitter, hdisk⟩ := ih fun call hcall => hsettled call (List.mem_append_left _ hcall)
    have hlast := hsettled _ (List.mem_append_right _ (List.mem_singleton_self _))
    have houtput := offered_output d (Storage.below base buffer) emitter calls
    generalize d.offered (Storage.below base buffer) emitter calls = before at *
    -- a call that is accepted is made both times, and one that is turned away changes nothing
    rcases ok_or_objection_of_settled (by rwa [houtput]) hlast with ⟨p, hok⟩ | ⟨_, hobjection⟩
    · simp only
      rw [hok, accepted_concat_ok, offered_concat]
      simp only [hemitter, hdisk, and_self]
    · simp only [emitted_emit_of_objection hobjection]
      rw [accepted_concat_error]
      exact ⟨hemitter, hdisk⟩

/-- What is in the staging directory are the files of the names that were written. -/
theorem Logged.file_iff (hbegun : Begun base output l d d₁) {e : Disk}
    (h : Logged base output l d₁ log emitter e) (hk : ".staging" :: l <:+ k) :
    (∃ content, e.tree.find? k = some (.file content)) ↔
      ∃ n ∈ emitter.written.toList, k = fileName n :: ".staging" :: l := by
  -- there was no file when the run began, so every file is an output of it
  have hnone : ∀ content, d₁.tree.find? k ≠ some (.file content) := by
    intro content
    rw [hbegun.inside k hk]
    split <;> simp
  rw [h.staged.view]
  constructor
  · rintro ⟨content, hfile⟩
    by_contra hno
    rw [overlay_of_no_output] at hfile
    · exact hnone content hfile
    · rintro t ht rfl
      exact hno ⟨t.name, (h.written t.name).2 ⟨t, ht, rfl⟩, rfl⟩
  · rintro ⟨n, hn, rfl⟩
    obtain ⟨t, ht, rfl⟩ := (h.written n).1 hn
    obtain ⟨content, hcontent⟩ := exists_lastFile? h.staged.files ht
    exact ⟨content, overlay_eq_file hcontent⟩

/-- **Collisions over a whole run.** Let every call after the start of a run have been settled.
Whatever is given next collides exactly if names may not, and a tensor of its name was accepted
before. In the staging directory are the files of the names that were written and no others. A
commit succeeds if no directory stands in the place of a file, and publishes for each name the
tensor that counts. And all of this is the same without the calls that were turned away. -/
theorem collisions (hout : outputPath base output ≠ "")
    (hstart : d.outcome (start (Storage.below base buffer) output) = (.ok emitter, d₁))
    (hsettled : ∀ call ∈ (d₁.offered (Storage.below base buffer) emitter calls).1.1,
      settled call.2 = true) :
    ∃ l, d.lead? (outputPath base output) = some l ∧
      let given := d₁.offered (Storage.below base buffer) emitter calls
      (∀ t, (given.2.emitted given.1.2 (emit (Storage.below base buffer) t)).1.1 =
          .error (.failed (.collision t.name)) ↔
        (t.Acceptable ∧ ∃ earlier ∈ accepted given.1.1, earlier.name = t.name) ∧
          output.onCollision = .error) ∧
      (∀ n, n ∈ given.1.2.written.toList ↔
        ∃ t, chosen? output.onCollision calls n = some t) ∧
      (∀ k, ".staging" :: l <:+ k → ((∃ content, given.2.tree.find? k = some (.file content)) ↔
        ∃ n ∈ given.1.2.written.toList, k = fileName n :: ".staging" :: l)) ∧
      ((∀ n ∈ given.1.2.written.toList, given.2.tree.find? (fileName n :: l) ≠ some .directory) →
        ∃ e, given.2.emitted given.1.2 (commit (Storage.below base buffer)) =
            ((.ok given.1.2.stats, given.1.2), e) ∧
          (∀ n t, chosen? output.onCollision calls n = some t → ∃ content,
            t.file? = some content ∧ e.tree.find? (fileName n :: l) = some (.file content)) ∧
          ∀ k, ¬ ".staging" :: l <:+ k →
            (∀ n ∈ given.1.2.written.toList, k ≠ fileName n :: l) →
            e.tree.find? k = d₁.tree.find? k) ∧
      (d₁.offered (Storage.below base buffer) emitter (accepted given.1.1)).1.2 = given.1.2 ∧
      (d₁.offered (Storage.below base buffer) emitter (accepted given.1.1)).2 = given.2 := by
  obtain ⟨rfl, l, hbegun⟩ := begun_of_start hout hstart
  have hlogged := logged_offered hout hbegun.staging hbegun.files hsettled
  have hcalls := map_fst_offered (Storage.below base buffer) { output } d₁ calls
  refine ⟨l, hbegun.lead, ?_⟩
  intro given
  change Logged base output l d₁ given.1.1 given.1.2 given.2 at hlogged
  change given.1.1.map (·.1) = calls at hcalls
  have hsame : (d₁.offered (Storage.below base buffer) { output } (accepted given.1.1)).1.2 =
    given.1.2 ∧
      (d₁.offered (Storage.below base buffer) { output } (accepted given.1.1)).2 = given.2 :=
    offered_accepted hout hsettled
  -- all but the last part is read off from the log
  refine ⟨?_, ?_, fun k hk => hlogged.file_iff hbegun hk, ?_, hsame⟩
  · intro t
    rw [collision_iff (by rwa [hlogged.settings]), hlogged.written, hlogged.settings]
  · intro n
    rw [hlogged.written_iff, hcalls]
  · intro hclear
    have hstaged : Staged base given.1.2.output l d₁ (accepted given.1.1) given.2 := by
      rw [hlogged.settings]
      exact hlogged.staged
    have hready : Ready base given.1.2.output l d₁ (accepted given.1.1) := by
      rw [hlogged.settings]
      exact hlogged.staged.ready hout hbegun.staging hbegun.files
    -- nothing has been put in the places of the files yet, so they were free when the run began
    have hclear₁ : ∀ t ∈ accepted given.1.1,
        d₁.tree.find? (fileName t.name :: l) ≠ some .directory := by
      intro t ht
      have hfree := hclear t.name ((hlogged.written t.name).2 ⟨t, ht, rfl⟩)
      rwa [hlogged.staged.view, overlay_of_not_suffix (file_not_in_staging t.name l)] at hfree
    obtain ⟨e, hcommit, hview⟩ := commit_published buffer hready hstaged hlogged.written hclear₁
    refine ⟨e, hcommit, ?_, ?_⟩
    · intro n t ht
      have hlast : lastOutput? (accepted given.1.1) (fileName n) = some t := by
        rw [hlogged.chosen, hcalls, ht]
      obtain ⟨content, hcontent⟩ := Option.isSome_iff_exists.1
        (hlogged.staged.files t (exists_of_lastOutput? hlast).1)
      refine ⟨content, hcontent, ?_⟩
      rw [hview _ (file_not_in_staging n l), overlay_eq_file]
      rw [lastFile?, hlast]
      exact hcontent
    · intro k hk hother
      rw [hview k hk, overlay_of_no_output]
      intro t ht
      exact hother t.name ((hlogged.written t.name).2 ⟨t, ht, rfl⟩)

/-! ### A name that is given twice -/

/-- Two tensors of one name, and between them one whose name is not that of a file. -/
def twice : List OutputTensor := [speck, ⟨"", ⟨1, 1, 1⟩, [3]⟩, ⟨"a", ⟨1, 1, 1⟩, [2]⟩]

/-- A name that is given twice, with a policy that lets it: the second tensor is published. -/
theorem collisions_twice :
    ∃ d₁, blank.outcome (start belowHere fresh.output) = (.ok fresh, d₁) ∧
      let given := d₁.offered belowHere fresh twice
      (∀ call ∈ given.1.1, settled call.2 = true) ∧
        (∀ n, n ∈ given.1.2.written.toList ↔ ∃ t, chosen? .error twice n = some t) ∧
        chosen? .error twice "a" = some speck ∧ "a" ∈ given.1.2.written.toList := by
  have hall : (((blank.outcome (start belowHere fresh.output)).2.offered
      belowHere fresh twice).1.1.all fun call => settled call.2) = true := by
    decide +kernel
  have hout : outputPath "." fresh.output ≠ "" := by decide +kernel
  obtain ⟨d₁, hstart⟩ : ∃ d₁, blank.outcome (start belowHere fresh.output) = (.ok fresh, d₁) :=
    exists_start_eq hout (by decide +kernel)
  rw [hstart] at hall
  have hsettled : ∀ call ∈ (d₁.offered belowHere fresh twice).1.1,
      settled call.2 = true := List.all_eq_true.1 hall
  obtain ⟨l, -, -, hwritten, -⟩ := collisions hout hstart hsettled
  have hfirst : chosen? .error twice "a" = some speck := by decide +kernel
  exact ⟨d₁, hstart, hsettled, hwritten, hfirst, (hwritten "a").2 ⟨speck, hfirst⟩⟩

end Disk

end FlatWeights
