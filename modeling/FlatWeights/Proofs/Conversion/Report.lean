import FlatWeights.Proofs.Conversion.Outcome
import FlatWeights.Proofs.Emitter.Collisions
import Mathlib.Data.List.Dedup
import Mathlib.Data.List.Sort

/-!
What a run reports. On any storage a run is nothing but calls of its emitter, up to the first that
fails (`convertKeys_offered`); so what is known of calls is known of runs. The report of a run that
succeeds counts the keys, those of them that gave no output, and what the emitter has counted
(`report_of_perform`).

The one count of an emitter that looks at the disk is that of the names which the output directory
had already. As nothing is published before the commit, it is the number of the names written that
the directory had when the run began (`overwritten_of_offered`).
-/

set_option autoImplicit false

namespace FlatWeights

open Emitter

/-! ## Sets of names -/

namespace NameSet

/-- Two sets of the same names are the same. -/
theorem ext {s s' : NameSet} (h : ∀ n, n ∈ s.toList ↔ n ∈ s'.toList) : s = s' := by
  have hperm : s.keys.Perm s'.keys :=
    (List.perm_ext_iff_of_nodup s.nodup_toList s'.nodup_toList).2 h
  have hkeys : s.keys = s'.keys := by
    apply List.Perm.eq_of_pairwise _ s.keys_pairwise s'.keys_pairwise hperm
    intro a b _ _ hlt hgt
    exact absurd (String.lt_trans hlt hgt) (String.lt_irrefl a)
  -- entries differ in their names alone
  have hinjective : Function.Injective fun entry : String × Unit => entry.1 := by
    rintro ⟨a, -⟩ ⟨b, -⟩ (rfl : a = b)
    rfl
  exact SortedMap.ext_entries (List.map_injective_iff.2 hinjective hkeys)

/-- A new name is one more. -/
theorem perm_add {s : NameSet} {n : String} (hn : n ∉ s.toList) :
    (s.add n).toList.Perm (n :: s.toList) := by
  apply (List.perm_ext_iff_of_nodup (nodup_toList _) _).2
  · intro x
    rw [mem_toList_add, List.mem_cons]
  · exact List.nodup_cons.2 ⟨hn, s.nodup_toList⟩

end NameSet

/-! ## A run as calls of its emitter -/

/-- Nothing is written for the tensor of a key. -/
def Checkpoint.drops (c : Checkpoint) (naming : Naming) (key : String) : Bool :=
  match c.get key >>= naming.resolve with
  | .ok [] => true
  | _ => false

/-- A tensor is to be written for one of some keys. -/
def Checkpoint.Gives (c : Checkpoint) (naming : Naming) (keys : List String) (t : OutputTensor) :
    Prop :=
  ∃ key ∈ keys, ∃ outputs, (c.get key >>= naming.resolve) = .ok outputs ∧ t ∈ outputs

namespace Disk

variable {d d₁ e : Disk} {base : Path} {buffer : Nat} {output : OutputSettings} {l : Location}
  {storage : Storage (StateM Disk)} {checkpoint : Checkpoint} {naming : Naming}
  {emitter : Emitter} {t : OutputTensor} {outs calls before last : List OutputTensor} {stop : Stop}

/-- Tensors are all staged, each after those before it. -/
def AllStaged (d : Disk) (storage : Storage (StateM Disk)) (emitter : Emitter)
    (calls : List OutputTensor) : Prop :=
  ∀ call ∈ (d.offered storage emitter calls).1.1, call.2.isOk = true

instance : Decidable (d.AllStaged storage emitter calls) :=
  inferInstanceAs (Decidable (∀ call ∈ (d.offered storage emitter calls).1.1, call.2.isOk = true))

theorem allStaged_nil : d.AllStaged storage emitter [] := by
  intro call hcall
  exact absurd hcall List.not_mem_nil

/-- Outputs are all staged if the first are and the last are after them. -/
theorem allStaged_append : d.AllStaged storage emitter (before ++ last) ↔
    d.AllStaged storage emitter before ∧ (d.offered storage emitter before).2.AllStaged storage
      (d.offered storage emitter before).1.2 last := by
  rw [AllStaged, offered_append]
  exact List.forall_mem_append

theorem allStaged_singleton :
    d.AllStaged storage emitter [t] ↔ ∃ p, (d.emitted emitter (emit storage t)).1.1 = .ok p := by
  rw [AllStaged, offered_cons]
  cases (d.emitted emitter (emit storage t)).1.1 <;> simp [Except.isOk, Except.toBool]

/-- What follows outputs that are all staged is emitted after them. -/
theorem emitAll_of_staged (h : d.AllStaged storage emitter outs) (later : List OutputTensor) :
    d.emitted emitter (Conversion.emitAll storage (outs ++ later)) =
      (d.offered storage emitter outs).2.emitted (d.offered storage emitter outs).1.2
        (Conversion.emitAll storage later) := by
  induction outs generalizing d emitter with
  | nil => rfl
  | cons t outs ih =>
    rw [← List.singleton_append, allStaged_append, allStaged_singleton] at h
    obtain ⟨⟨p, hp⟩, hlater⟩ := h
    have hemit : d.emitted emitter (emit storage t) =
        ((.ok p, (d.emitted emitter (emit storage t)).1.2),
          (d.emitted emitter (emit storage t)).2) := by
      rw [← hp]
    rw [List.cons_append, Conversion.emitAll, emitted_bind_ok hemit]
    exact ih hlater

/-- Emitting ends at the first output that is not staged. -/
theorem emitAll_of_unstaged (h : d.AllStaged storage emitter outs)
    (hemit : ((d.offered storage emitter outs).2.emitted (d.offered storage emitter outs).1.2
      (emit storage t)).1.1 = .error stop) (later : List OutputTensor) :
    d.emitted emitter (Conversion.emitAll storage (outs ++ t :: later)) =
      ((.error stop, (d.offered storage emitter (outs ++ [t])).1.2),
        (d.offered storage emitter (outs ++ [t])).2) := by
  rw [emitAll_of_staged h, offered_concat, Conversion.emitAll]
  exact emitted_bind_error (by rw [← hemit]) _

/-- Tensors are all staged, or one is not, after those before it. -/
theorem allStaged_or (d : Disk) (storage : Storage (StateM Disk)) (emitter : Emitter)
    (outs : List OutputTensor) : d.AllStaged storage emitter outs ∨
      ∃ front t back stop, outs = front ++ t :: back ∧ d.AllStaged storage emitter front ∧
        ((d.offered storage emitter front).2.emitted (d.offered storage emitter front).1.2
          (emit storage t)).1.1 = .error stop := by
  induction outs using List.reverseRecOn with
  | nil => exact .inl allStaged_nil
  | append_singleton outs t ih =>
    rcases ih with hall | ⟨front, t', back, stop, rfl, hfront, hstop⟩
    · cases hlast : ((d.offered storage emitter outs).2.emitted
        (d.offered storage emitter outs).1.2 (emit storage t)).1.1 with
      | ok p => exact .inl (allStaged_append.2 ⟨hall, allStaged_singleton.2 ⟨p, hlast⟩⟩)
      | error stop => exact .inr ⟨outs, t, [], stop, rfl, hall, hlast⟩
    · exact .inr ⟨front, t', back ++ [t], stop, by simp, hfront, hstop⟩

/-- The outputs of a tensor are given to the emitter up to the first that is not staged. -/
theorem emitAll_offered (storage : Storage (StateM Disk)) (outs : List OutputTensor)
    (emitter : Emitter) (d : Disk) :
    ∃ calls rest, outs = calls ++ rest ∧
      (d.emitted emitter (Conversion.emitAll storage outs)).1.2 =
        (d.offered storage emitter calls).1.2 ∧
      (d.emitted emitter (Conversion.emitAll storage outs)).2 =
        (d.offered storage emitter calls).2 ∧
      ((d.emitted emitter (Conversion.emitAll storage outs)).1.1 = .ok () →
        rest = [] ∧ ∀ call ∈ (d.offered storage emitter calls).1.1, call.2.isOk = true) := by
  -- the call that fails is the last one to be made
  rcases allStaged_or d storage emitter outs with
    hall | ⟨front, t, back, stop, rfl, hfront, hstop⟩
  · have hrun := emitAll_of_staged hall []
    rw [List.append_nil] at hrun
    rw [hrun]
    exact ⟨outs, [], (List.append_nil outs).symm, rfl, rfl, fun _ => ⟨rfl, hall⟩⟩
  · refine ⟨front ++ [t], back, by simp, ?_⟩
    rw [emitAll_of_unstaged hfront hstop]
    exact ⟨rfl, rfl, fun h => absurd h (by simp)⟩

/-- **A run is calls of its emitter.** The emitter and the disk are those after a number of calls,
all with outputs of the keys. If the run comes to its end, these are all outputs, each was staged,
and every key was counted. -/
theorem convertKeys_offered (storage : Storage (StateM Disk)) (naming : Naming)
    (checkpoint : Checkpoint) (keys : List String) (progress : Progress (List String))
    (run : Conversion) (d : Disk) :
    ∃ calls, (∀ t ∈ calls, checkpoint.Gives naming keys t) ∧
      let ended := d.run (Conversion.convertKeys storage naming checkpoint keys progress run)
      let given := d.offered storage run.emitter calls
      ended.1.2.emitter = given.1.2 ∧ ended.2 = given.2 ∧
        (ended.1.1 = .ok () → checkpoint.outputsOf naming keys = .ok calls ∧
          (∀ call ∈ given.1.1, call.2.isOk = true) ∧
          ended.1.2.tensorsRead = run.tensorsRead + keys.length ∧
          ended.1.2.tensorsDropped =
            run.tensorsDropped + keys.countP (checkpoint.drops naming)) := by
  -- the calls for a key are followed by those for the later keys, unless one of them fails
  induction keys generalizing run progress d with
  | nil => exact ⟨[], by simp, rfl, rfl, fun _ => ⟨rfl, by simp, rfl, rfl⟩⟩
  | cons key keys ih =>
    rw [run_convertKeys_step]
    cases hkey : checkpoint.get key >>= naming.resolve with
    | error stop => exact ⟨[], by simp, rfl, rfl, fun h => absurd h (by simp)⟩
    | ok outputs =>
    simp only
    obtain ⟨first, rest, hsplit, hemitter, hdisk, hok⟩ :=
      emitAll_offered storage outputs run.emitter d
    have hgives : ∀ t ∈ first, checkpoint.Gives naming (key :: keys) t := by
      intro t ht
      refine ⟨key, by simp, outputs, hkey, ?_⟩
      rw [hsplit]
      exact List.mem_append_left _ ht
    cases hall : d.emitted run.emitter (Conversion.emitAll storage outputs) with
    | mk answer f =>
    obtain ⟨result, next⟩ := answer
    rw [hall] at hemitter hdisk hok
    cases result with
    | error stop => exact ⟨first, hgives, hemitter, hdisk, fun h => absurd h (by simp)⟩
    | ok _ =>
    obtain ⟨rfl, hstaged⟩ := hok rfl
    rw [List.append_nil] at hsplit
    subst hsplit
    obtain ⟨later, hlater, hemitter', hdisk', hok'⟩ := ih (progress.next Source.exact).2
      (run.passed outputs next (progress.next Source.exact).2) f
    refine ⟨outputs ++ later, ?_, ?_⟩
    · intro t ht
      rcases List.mem_append.1 ht with ht | ht
      · exact hgives t ht
      · obtain ⟨key', hkey', houtputs⟩ := hlater t ht
        exact ⟨key', List.mem_cons_of_mem key hkey', houtputs⟩
    · rw [offered_append]
      simp only at hemitter hdisk hemitter' hdisk' hok' ⊢
      rw [← hemitter, ← hdisk]
      refine ⟨hemitter', hdisk', fun h => ?_⟩
      obtain ⟨houts, hall', hread, hdropped⟩ := hok' h
      refine ⟨?_, ?_, ?_, ?_⟩
      · exact Checkpoint.outputsOf_cons_eq_ok_iff.2 ⟨outputs, later, hkey, houts, rfl⟩
      · intro call hcall
        rcases List.mem_append.1 hcall with hcall | hcall
        · exact hstaged call hcall
        · exact hall' call hcall
      · rw [hread, Conversion.passed_tensorsRead, List.length_cons]
        omega
      · rw [hdropped, Conversion.passed_tensorsDropped, List.countP_cons, Checkpoint.drops, hkey]
        cases outputs with
        | nil => simp; omega
        | cons t outputs => simp

/-- The report of a run that succeeds. -/
theorem report_of_perform {report : ConversionReport}
    (hstart : d.outcome (start storage output) = (.ok emitter, d₁))
    (h : (d.run (Conversion.perform storage output naming checkpoint)).1.result = .ok report) :
    ∃ calls, checkpoint.outputs naming = .ok calls ∧
      let given := d₁.offered storage emitter calls
      (∀ call ∈ given.1.1, call.2.isOk = true) ∧
        report = ⟨checkpoint.keys.length, checkpoint.keys.countP (checkpoint.drops naming),
          given.1.2.stats.files, given.1.2.stats.bytes, given.1.2.stats.overwritten⟩ := by
  obtain ⟨calls, -, hemitter, -, hok⟩ := convertKeys_offered storage naming checkpoint
    checkpoint.keys (Progress.start Source.exact checkpoint.keys) { emitter } d₁
  rw [run_perform, hstart] at h
  simp only at h
  generalize d₁.run (Conversion.convertKeys storage naming checkpoint checkpoint.keys
    (Progress.start Source.exact checkpoint.keys) { emitter }) = ended at h hemitter hok
  obtain ⟨⟨result, run⟩, f⟩ := ended
  cases result with
  | error stop => cases stop <;> exact absurd h (by simp)
  | ok _ =>
  obtain ⟨houts, hall, hread, hdropped⟩ := hok rfl
  refine ⟨calls, houts, hall, ?_⟩
  -- the totals are those before the commit, which only decides whether they are reported
  have hreport : run.report = report := by
    simp only at h
    generalize f.emitted run.emitter (commit storage) = committed at h
    obtain ⟨⟨result, last⟩, g⟩ := committed
    cases result with
    | error stop => cases stop <;> exact absurd h (by simp)
    | ok stats => exact Except.ok.inj h
  simp only at hemitter hread hdropped
  rw [← hreport, Conversion.report, hread, hdropped, hemitter]
  simp

/-! ## What the emitter has counted -/

/-- An emitter that has staged its tensors has accepted them. -/
theorem acceptAll?_of_offered
    (hall : ∀ call ∈ (d.offered storage emitter calls).1.1, call.2.isOk = true) :
    emitter.bare.acceptAll? calls = some (d.offered storage emitter calls).1.2.bare := by
  induction calls generalizing d emitter with
  | nil => rfl
  | cons t calls ih =>
    rw [offered_cons] at hall ⊢
    cases hemit : d.emitted emitter (emit storage t) with
    | mk answer f =>
    obtain ⟨result, next⟩ := answer
    rw [hemit] at hall
    have hlater := ih fun call hcall => hall call (List.mem_cons_of_mem _ hcall)
    cases result with
    | error stop =>
      have hfirst := hall _ (List.mem_cons_self ..)
      exact absurd hfirst (by simp [Except.isOk, Except.toBool])
    | ok p =>
    obtain ⟨hopen, header, total, hheader, htotal, hnext⟩ := emitter_of_ok hemit
    obtain ⟨⟨hname, -⟩, hmay⟩ := objection?_eq_none_iff.1 hopen
    -- noting a name leaves the number of bytes as it is
    have hsame : (d.noting storage emitter t.name).total? header = emitter.bare.total? header := by
      unfold noting
      split <;> rfl
    have hfirst : emitter.bare.accept? t = some next.bare := by
      refine accept?_eq_some_iff.2 ⟨header, total, hheader, hsame ▸ htotal, ⟨hname, hmay⟩, ?_⟩
      rw [hnext, Emitter.bare, counted, noting_output, noting_written]
      unfold noting
      split <;> rfl
    rw [acceptAll?_cons, hfirst]
    exact hlater

/-- Where the staging directory takes the file of a name, the output directory does. -/
theorem TakesEntry.out {n : String} (hn : validOutputName n = true)
    (h : d.TakesEntry (stagingPath base output) (fileName n)) :
    d.TakesEntry (outputPath base output) (fileName n) :=
  ⟨takesPath_join_of_join isName_staging (isName_fileName hn) h.path, h.name⟩

/-- Whether the output directory has a name can be seen in the tree. -/
theorem DirAt.holds_eq (h : d.DirAt (outputPath base output) l) {n : String}
    (hn : validOutputName n = true) (htakes : d.TakesEntry (outputPath base output) (fileName n)) :
    d.holds (Storage.below base buffer) (finalPath output n) =
      (d.tree.find? (fileName n :: l)).isSome := by
  rw [holds, outcome_contains (join_finalPath base output hn),
    kind?_join h (isName_fileName hn) htakes]
  exact Option.isSome_map

/-- The output directory has what it had when the run began. -/
theorem Staged.holds (hout : outputPath base output ≠ "")
    (h₁ : d₁.DirAt (stagingPath base output) (".staging" :: l))
    (h : Staged base output l d₁ outs d) {n : String} (hn : validOutputName n = true) :
    d.holds (Storage.below base buffer) (finalPath output n) =
      d₁.holds (Storage.below base buffer) (finalPath output n) := by
  have hfull := join_finalPath base output hn
  have hx := isName_fileName hn
  have hdir := ((h.dirAt h₁).out hout).1
  have hdir₁ := (h₁.out hout).1
  have hsame : d.find? ((outputPath base output).join (fileName n)) =
      d₁.find? ((outputPath base output).join (fileName n)) := by
    apply Option.ext
    intro found
    rw [find?_join_eq_some_iff hdir hx, find?_join_eq_some_iff hdir₁ hx, h.view,
      overlay_of_not_suffix (file_not_in_staging n l)]
    exact and_congr_left' ⟨h.limits.symm.takesEntry, h.limits.takesEntry⟩
  rw [Disk.holds, Disk.holds, outcome_contains hfull, outcome_contains hfull, kind?, kind?, hsame]

/-- The names that count as overwritten are those that the output directory had when the run began.
-/
theorem overwritten_of_offered (hout : outputPath base output ≠ "")
    (h₁ : d₁.DirAt (stagingPath base output) (".staging" :: l))
    (hinside : ∀ x content, d₁.tree.find? (x :: ".staging" :: l) ≠ some (.file content))
    (hsettled : ∀ call ∈ (d₁.offered (Storage.below base buffer) { output } calls).1.1,
      settled call.2 = true) :
    let given := d₁.offered (Storage.below base buffer) { output } calls
    given.1.2.stats.overwritten = given.1.2.written.toList.countP fun n =>
      d₁.holds (Storage.below base buffer) (finalPath output n) := by
  induction calls using List.reverseRecOn with
  | nil => rfl
  | append_singleton calls t ih =>
    rw [offered_concat] at hsettled ⊢
    have hbefore : ∀ call ∈ (d₁.offered (Storage.below base buffer) { output } calls).1.1,
        settled call.2 = true := fun call hcall => hsettled call (List.mem_append_left _ hcall)
    have hlogged := logged_offered hout h₁ hinside hbefore
    have hcount := ih hbefore
    have hlast := hsettled _ (List.mem_append_right _ (List.mem_singleton_self _))
    generalize d₁.offered (Storage.below base buffer) { output } calls = before at *
    simp only at hcount ⊢
    cases hemit : before.2.emitted before.1.2 (emit (Storage.below base buffer) t) with
    | mk answer f =>
    obtain ⟨result, next⟩ := answer
    have hout' : outputPath base before.1.2.output ≠ "" := by rwa [hlogged.settings]
    rcases ok_or_objection_of_settled hout' hlast with ⟨p, hok⟩ | ⟨_, hobjection⟩
    · rw [hemit] at hok
      obtain rfl : result = .ok p := hok
      obtain ⟨hopen, header, total, -, -, rfl⟩ := emitter_of_ok hemit
      have hname := (objection?_eq_none_iff.1 hopen).1.1
      rw [counted]
      simp only [noting_written]
      unfold noting noted
      -- the output directory is asked for a name when it is written for the first time
      by_cases hwritten : before.1.2.written.contains t.name = true
      · rw [if_pos hwritten, if_pos hwritten]
        exact hcount
      · rw [if_neg hwritten, if_neg hwritten]
        have hnew : t.name ∉ before.1.2.written.toList := fun hmem =>
          hwritten (NameSet.contains_iff.2 hmem)
        rw [(NameSet.perm_add hnew).countP_eq, List.countP_cons, ← hcount, hlogged.settings,
          hlogged.staged.holds hout h₁ hname]
    · rw [emitted_emit_of_objection hobjection] at hemit
      obtain ⟨hcall, -⟩ := Prod.mk.inj hemit
      obtain ⟨-, rfl⟩ := Prod.mk.inj hcall
      exact hcount

/-- The names that a run has written are those of its outputs, each of them once. -/
theorem Possible.written_perm {next : Emitter}
    (h : Possible base buffer output naming checkpoint l outs next d₁) :
    next.written.toList.Perm (outs.map (·.name)).dedup := by
  rw [List.perm_ext_iff_of_nodup next.written.nodup_toList (List.nodup_dedup _)]
  intro n
  rw [h.written, List.mem_dedup, List.mem_map]

/-- The report of a run in whose way nothing is. All it takes from the disk is which of the names
written the output directory had when the run began. -/
theorem report_of_possible {next : Emitter} {report : ConversionReport}
    (hout : outputPath base output ≠ "")
    (hstart : d.outcome (start (Storage.below base buffer) output) = (.ok { output }, d₁))
    (hbegun : Begun base output l d d₁)
    (hpossible : Possible base buffer output naming checkpoint l outs next d₁)
    (h : (d.run (Conversion.perform (Storage.below base buffer) output naming
      checkpoint)).1.result = .ok report) :
    report = ⟨checkpoint.keys.length, checkpoint.keys.countP (checkpoint.drops naming),
      next.stats.files, next.stats.bytes, next.written.toList.countP fun n =>
        d₁.holds (Storage.below base buffer) (finalPath output n)⟩ := by
  obtain ⟨calls, houts, hall, rfl⟩ := report_of_perform hstart h
  obtain rfl : outs = calls := Except.ok.inj (hpossible.outputs.symm.trans houts)
  have hcount := overwritten_of_offered hout hbegun.staging hbegun.files
    fun call hcall => settled_of_isOk (hall call hcall)
  obtain rfl := Option.some.inj (hpossible.accepted.symm.trans (acceptAll?_of_offered hall))
  simp only at hcount
  rw [hcount]
  rfl

end Disk

end FlatWeights
