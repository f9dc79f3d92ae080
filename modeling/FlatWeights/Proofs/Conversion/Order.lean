import FlatWeights.Proofs.Conversion.Atomicity
import FlatWeights.Proofs.Conversion.Recovery
import FlatWeights.Proofs.Conversion.Report
import FlatWeights.Proofs.Emitter.Frame

/-!
The order of the keys. A collection of tensors may be gone through in any order: where no name may
be given twice, a run succeeds in all orders or in none, with the same report and the same tree in
the end (`perform_reordered`). What carries this is that accepting two outputs commutes
(`accept?_comm`), so that all orders leave the same emitter behind, and that the files of a run are
then found by their names alone (`lastFile?_perm`).

Which failure is reported may depend on the order. The tree does not, with one exception: a
directory on the way to the output directory that stands where an output goes to first
(`Obstructed`). The write that meets it removes it, and what was staged until then is out of reach.
-/

set_option autoImplicit false

namespace FlatWeights

open Emitter

/-! ## Checkpoints in another order -/

/-- Two checkpoints hold the same tensors, in orders that may differ. -/
structure Checkpoint.Reordered (c c' : Checkpoint) : Prop where
  keys : c.keys.Perm c'.keys
  get : c'.get = c.get

namespace Checkpoint

variable {c c' : Checkpoint} {naming : Naming} {keys keys' : List String}
  {outs : List OutputTensor}

theorem Reordered.symm (h : c.Reordered c') : c'.Reordered c := ⟨h.keys.symm, h.get.symm⟩

theorem Reordered.outputsOf (h : c.Reordered c') (naming : Naming) (keys : List String) :
    c'.outputsOf naming keys = c.outputsOf naming keys :=
  outputsOf_congr (fun key _ => congrFun h.get key) naming

theorem Reordered.drops (h : c.Reordered c') : c'.drops naming = c.drops naming := by
  funext key
  rw [Checkpoint.drops, Checkpoint.drops, h.get]

theorem Reordered.gives (h : c.Reordered c') {t : OutputTensor} :
    c'.Gives naming c'.keys t ↔ c.Gives naming c.keys t := by
  unfold Gives
  rw [h.get]
  apply exists_congr
  intro key
  rw [h.keys.mem_iff]

/-- The outputs of keys in another order are the same outputs in another order. -/
theorem outputsOf_perm (hperm : keys.Perm keys') (houts : c.outputsOf naming keys = .ok outs) :
    ∃ outs', c.outputsOf naming keys' = .ok outs' ∧ outs.Perm outs' := by
  induction hperm generalizing outs with
  | nil => exact ⟨outs, houts, .refl outs⟩
  | cons key _ ih =>
    obtain ⟨outputs, later, hkey, hlater, rfl⟩ := outputsOf_cons_eq_ok_iff.1 houts
    obtain ⟨later', hlater', hperm⟩ := ih hlater
    exact ⟨outputs ++ later', outputsOf_cons_eq_ok_iff.2 ⟨outputs, later', hkey, hlater', rfl⟩,
      hperm.append_left outputs⟩
  | swap key key' rest =>
    obtain ⟨second, later, hsecond, hlater, rfl⟩ := outputsOf_cons_eq_ok_iff.1 houts
    obtain ⟨first, last, hfirst, hlast, rfl⟩ := outputsOf_cons_eq_ok_iff.1 hlater
    have hrest : c.outputsOf naming (key' :: rest) = .ok (second ++ last) :=
      outputsOf_cons_eq_ok_iff.2 ⟨second, last, hsecond, hlast, rfl⟩
    -- the outputs of one key keep their order, those of the two keys change places
    refine ⟨first ++ (second ++ last),
      outputsOf_cons_eq_ok_iff.2 ⟨first, _, hfirst, hrest, rfl⟩, ?_⟩
    rw [← List.append_assoc, ← List.append_assoc]
    exact List.perm_append_comm.append_right last
  | trans _ _ ih ih' =>
    obtain ⟨between, hbetween, hperm⟩ := ih houts
    obtain ⟨outs', houts', hperm'⟩ := ih' hbetween
    exact ⟨outs', houts', hperm.trans hperm'⟩

end Checkpoint

/-! ## Accepting outputs in another order -/

namespace Emitter

variable {emitter next : Emitter} {a b : OutputTensor} {outs outs' : List OutputTensor}

/-- The emitter once one more name is written. -/
def withNoted (emitter : Emitter) (name : String) : Emitter :=
  { emitter with written := emitter.noted name }

/-- Which of two names is written first makes no difference to what is written. -/
theorem noted_comm (emitter : Emitter) (x y : String) :
    (emitter.withNoted x).noted y = (emitter.withNoted y).noted x := by
  apply NameSet.ext
  intro n
  rw [mem_noted, mem_noted]
  unfold withNoted
  simp only [mem_noted]
  exact or_left_comm

/-- If a name may be written after another one, either may be written first. -/
theorem mayWrite_comm {x y : String} (hx : emitter.MayWrite x)
    (hy : (emitter.withNoted x).MayWrite y) :
    emitter.MayWrite y ∧ (emitter.withNoted y).MayWrite x := by
  have hwarn : y = x ∨ y ∈ emitter.written.toList → emitter.output.onCollision = .warn := by
    intro hmem
    exact hy (NameSet.contains_iff.2 (mem_noted.2 hmem))
  constructor
  · intro hcontains
    exact hwarn (.inr (NameSet.contains_iff.1 hcontains))
  · intro hcontains
    rcases mem_noted.1 (NameSet.contains_iff.1 hcontains) with heq | hmem
    · exact hwarn (.inl heq.symm)
    · exact hx (NameSet.contains_iff.2 hmem)

/-- Which of two outputs is accepted first makes no difference, whatever the policy is. -/
theorem accept?_comm (h : (emitter.accept? a).bind (·.accept? b) = some next) :
    (emitter.accept? b).bind (·.accept? a) = some next := by
  obtain ⟨first, hfirst, hsecond⟩ := Option.bind_eq_some_iff.1 h
  obtain ⟨header, total, hheader, htotal, ⟨hname, hmay⟩, rfl⟩ := accept?_eq_some_iff.1 hfirst
  obtain ⟨header', total', hheader', htotal', ⟨hname', hmay'⟩, rfl⟩ :=
    accept?_eq_some_iff.1 hsecond
  obtain ⟨payload, hpayload, rfl, -⟩ := total?_eq_some_iff.1 htotal
  obtain ⟨payload', hpayload', rfl, hlimit⟩ := total?_eq_some_iff.1 htotal'
  simp only at hlimit
  obtain ⟨hmay', hmay⟩ := mayWrite_comm hmay hmay'
  have hnames := noted_comm emitter a.name b.name
  have hbytes : emitter.stats.bytes + (WeightFile.headerLength + payload) +
      (WeightFile.headerLength + payload') =
        emitter.stats.bytes + (WeightFile.headerLength + payload') +
          (WeightFile.headerLength + payload) := by
    omega
  -- the bytes of one output are below the limit because those of both are
  have htotal : emitter.total? header' =
      some (emitter.stats.bytes + (WeightFile.headerLength + payload')) :=
    total?_eq_some_iff.2 ⟨payload', hpayload', rfl, by omega⟩
  apply Option.bind_eq_some_iff.2
  refine ⟨_, accept?_eq_some_iff.2 ⟨header', _, hheader', htotal, ⟨hname', hmay'⟩, rfl⟩, ?_⟩
  refine accept?_eq_some_iff.2 ⟨header, _, hheader,
    total?_eq_some_iff.2 ⟨payload, hpayload, rfl, ?_⟩, ⟨hname, hmay⟩, ?_⟩
  · simp only
    omega
  · rw [Emitter.mk.injEq, EmitStats.mk.injEq]
    exact ⟨rfl, hnames, rfl, hbytes, rfl⟩

/-- Accepting outputs comes to the same in every order. -/
theorem acceptAll?_perm (hperm : outs.Perm outs') (h : emitter.acceptAll? outs = some next) :
    emitter.acceptAll? outs' = some next := by
  induction hperm generalizing emitter with
  | nil => exact h
  | cons t _ ih =>
    rw [acceptAll?_cons] at h ⊢
    obtain ⟨first, hfirst, hrest⟩ := Option.bind_eq_some_iff.1 h
    exact Option.bind_eq_some_iff.2 ⟨first, hfirst, ih hrest⟩
  | swap a b rest =>
    rw [acceptAll?_cons] at h ⊢
    simp only [acceptAll?_cons] at h ⊢
    rw [← Option.bind_assoc] at h ⊢
    obtain ⟨second, hsecond, hrest⟩ := Option.bind_eq_some_iff.1 h
    exact Option.bind_eq_some_iff.2 ⟨second, accept?_comm hsecond, hrest⟩
  | trans _ _ ih ih' => exact ih' (ih h)

end Emitter

/-! ## Files of outputs in another order -/

/-- Where no name is given twice, the last output for a file is the only one. -/
theorem lastOutput?_eq_some_iff {outs : List OutputTensor} (hnodup : (outs.map (·.name)).Nodup)
    {x : String} {t : OutputTensor} :
    lastOutput? outs x = some t ↔ t ∈ outs ∧ fileName t.name = x := by
  constructor
  · exact exists_of_lastOutput?
  · rintro ⟨ht, rfl⟩
    exact lastOutput?_of_nodup hnodup ht

/-- Where no name is given twice, the files do not depend on the order of the outputs. -/
theorem lastFile?_perm {outs outs' : List OutputTensor} (hperm : outs.Perm outs')
    (hnodup : (outs.map (·.name)).Nodup) : lastFile? outs' = lastFile? outs := by
  have hnodup' : (outs'.map (·.name)).Nodup := (hperm.map _).nodup_iff.1 hnodup
  funext x
  have hlast : lastOutput? outs' x = lastOutput? outs x := by
    apply Option.ext
    intro t
    rw [lastOutput?_eq_some_iff hnodup', lastOutput?_eq_some_iff hnodup, hperm.mem_iff]
  rw [lastFile?, lastFile?, hlast]

namespace Disk

variable {d d₀ d₁ d₂ e e₂ : Disk} {base : Path} {buffer : Nat} {output : OutputSettings}
  {l : Location} {outs outs' : List OutputTensor} {naming : Naming} {c c' : Checkpoint}
  {next : Emitter}

/-! ## Runs that stage everything -/

/-- What is given to the emitter in one order and accepted is so in the other. -/
theorem outputs_reordered (h : c.Reordered c') (houts : c.outputs naming = .ok outs)
    (hnext : Emitter.acceptAll? { output } outs = some next) :
    ∃ outs', c'.outputs naming = .ok outs' ∧ Emitter.acceptAll? { output } outs' = some next ∧
      outs.Perm outs' := by
  obtain ⟨outs', houts', hperm⟩ := Checkpoint.outputsOf_perm h.keys houts
  refine ⟨outs', ?_, acceptAll?_perm hperm hnext, hperm⟩
  rw [Checkpoint.outputs, h.outputsOf, houts']

theorem Possible.reordered (hpossible : Possible base buffer output naming c l outs next d₁)
    (h : c.Reordered c') :
    ∃ outs', Possible base buffer output naming c' l outs' next d₁ ∧ outs.Perm outs' := by
  obtain ⟨outs', houts', hnext', hperm⟩ :=
    outputs_reordered h hpossible.outputs hpossible.accepted
  refine ⟨outs', ⟨houts', hnext', ?_, ?_⟩, hperm⟩
  · intro t ht
    exact hpossible.fits t (hperm.mem_iff.2 ht)
  · intro t ht
    exact hpossible.clear t (hperm.mem_iff.2 ht)

/-- The report does not depend on the order. -/
theorem report_reordered {report report' : ConversionReport} (hout : outputPath base output ≠ "")
    (hstart : d.outcome (start (Storage.below base buffer) output) = (.ok { output }, d₁))
    (hbegun : Begun base output l d d₁) (h : c.Reordered c')
    (hpossible : Possible base buffer output naming c l outs next d₁)
    (hfirst : (d.run (Conversion.perform (Storage.below base buffer) output naming c)).1.result =
      .ok report)
    (hsecond : (d.run (Conversion.perform (Storage.below base buffer) output naming c')).1.result =
      .ok report') : report = report' := by
  obtain ⟨_, hpossible', -⟩ := hpossible.reordered h
  rw [report_of_possible hout hstart hbegun hpossible hfirst,
    report_of_possible hout hstart hbegun hpossible' hsecond, h.keys.length_eq, h.drops,
    h.keys.countP_eq]

theorem Published.congr {done : List String} (hfiles : lastFile? outs' = lastFile? outs)
    (h : Published base output l d₁ outs' done e) : Published base output l d₁ outs done e := by
  refine ⟨h.limits, h.origin, ?_⟩
  rw [h.view, hfiles]

/-! ## Runs that are refused -/

/-- A directory on the way to the output directory stands where an output of the run goes to
first. -/
def Obstructed (base : Path) (output : OutputSettings) (naming : Naming) (c : Checkpoint)
    (d : Disk) : Prop :=
  output.atomicWrites = true ∧ ∃ l t, d.lead? (outputPath base output) = some l ∧
    c.Gives naming c.keys t ∧ tempName t.name :: ".staging" :: l ∈ d.visits (outputPath base output)

/-- What a run that is refused has done until then are calls of its emitter, with outputs of its
tensors. -/
theorem perform_of_refused_framed (hout : outputPath base output ≠ "")
    (hstart : d.outcome (start (Storage.below base buffer) output) = (.ok { output }, d₁))
    (hbegun : Begun base output l d d₁)
    (hno : ∀ outs next, c.outputs naming = .ok outs →
      Emitter.acceptAll? { output } outs = some next →
        ∃ t ∈ outs, ¬ d₁.Fits base buffer output l t.name) :
    ∃ stop milestones calls e, d.run
      (Conversion.perform (Storage.below base buffer) output naming c) =
        (⟨.error stop, milestones⟩, match stop with
          | .failed _ => e.without (stagingPath base output)
          | .overflow => e) ∧
      Framed base output l d₁ calls e ∧ ∀ t ∈ calls, c.Gives naming c.keys t := by
  obtain ⟨stop, run, e, hkeys, -⟩ := convertKeys_of_refused hout hbegun.staging
    hbegun.files (Progress.start Source.exact c.keys) { emitter := { output } }
    (staged_nil d₁) rfl hno
  obtain ⟨calls, hgives, -, hdisk, -⟩ := convertKeys_offered (Storage.below base buffer) naming c
    c.keys
    (Progress.start Source.exact c.keys) { emitter := { output } } d₁
  -- whatever was offered before the end, nothing outside of the staging directory has moved
  have hframed : Framed base output l d₁ calls
      (d₁.offered (Storage.below base buffer) { output } calls).2 :=
    framed_offered hout hbegun rfl calls
  rw [hkeys] at hdisk
  rw [← hdisk] at hframed
  have hrun := perform_of_stopped hout hstart hkeys
  refine ⟨stop, run.milestones.reverse, calls, e, ?_, hframed, hgives⟩
  cases stop with
  | failed failure => exact hrun
  | overflow => exact hrun

/-- The way to the staging directory is open at the end of a run that nothing obstructs. -/
theorem Framed.dirAt_of_not_obstructed {calls : List OutputTensor}
    (h : Framed base output l d₁ calls e) (hout : outputPath base output ≠ "")
    (hbegun : Begun base output l d d₁) (hgives : ∀ t ∈ calls, c.Gives naming c.keys t)
    (hfree : ¬ Obstructed base output naming c d) :
    e.DirAt (stagingPath base output) (".staging" :: l) := by
  apply (h.dirAt_or hout hbegun).resolve_right
  rintro ⟨t, ht, hbarred, -⟩
  apply hfree
  refine ⟨hbarred.atomic, l, t, hbegun.lead, hgives t ht, WorkingDir.visits_of_fell hbegun.fell ?_⟩
  exact hbegun.mem_visits_of_inside hout (List.suffix_cons _ _) (List.cons_ne_self _ _)
    hbarred.stands

/-- Two runs of which nothing has come leave the same tree, if the way to the staging directory is
open in the end. -/
theorem Framed.same {calls calls' : List OutputTensor} (hout : outputPath base output ≠ "")
    (h : Framed base output l d₁ calls d₂) (h' : Framed base output l d₁ calls' e₂)
    (hdir : d₂.DirAt (stagingPath base output) (".staging" :: l))
    (hdir' : e₂.DirAt (stagingPath base output) (".staging" :: l)) :
    FileTree.Same (e₂.without (stagingPath base output)).tree
      (d₂.without (stagingPath base output)).tree := by
  refine same_without_staging hout hdir hdir' (h.limits.symm.trans h'.limits) ?_ fun k hk => ?_
  · rw [origin_staging hout, origin_staging hout, h.origin, h'.origin]
  · rw [h'.outside k hk, h.outside k hk]

/-! ## Runs in two orders -/

/-- **Two runs come to the same.** They succeed with the same report, or both fail; and the trees
that they leave are the same, but that what is in the staging directory may differ if both fail. It
does not, unless sizes overflow or an output is obstructed. -/
structure Alike (base : Path) (output : OutputSettings) (naming : Naming) (c : Checkpoint)
    (d : Disk) (first second : ConversionOutcome × Disk) : Prop where
  result : ∀ report, first.1.result = .ok report ↔ second.1.result = .ok report
  outside : ∀ k, ¬ d.InStaging (outputPath base output) k →
    second.2.tree.find? k = first.2.tree.find? k
  succeeded : ∀ report, first.1.result = .ok report → FileTree.Same second.2.tree first.2.tree
  failed : ∀ failure failure', first.1.result = .error (.failed failure) →
    second.1.result = .error (.failed failure') → ¬ Obstructed base output naming c d →
    FileTree.Same second.2.tree first.2.tree

theorem Alike.of_same {first second : ConversionOutcome × Disk}
    (hresult : ∀ report, first.1.result = .ok report ↔ second.1.result = .ok report)
    (hsame : FileTree.Same second.2.tree first.2.tree) :
    Alike base output naming c d first second :=
  ⟨hresult, fun k _ => hsame k, fun _ _ => hsame, fun _ _ _ _ _ => hsame⟩

section Reordered

variable (hout : outputPath base output ≠ "") (h : c.Reordered c')
  (hstart : d.outcome (start (Storage.below base buffer) output) = (.ok { output }, d₁))
  (hbegun : Begun base output l d d₁)

include hout h hstart hbegun

/-- If nothing is in the way of a run, nothing is in another order. -/
theorem alike_of_possible (hpolicy : output.onCollision = .error)
    (hpossible : Possible base buffer output naming c l outs next d₁) :
    Alike base output naming c d
      (d.run (Conversion.perform (Storage.below base buffer) output naming c))
      (d.run (Conversion.perform (Storage.below base buffer) output naming c')) := by
  obtain ⟨outs', hpossible', hperm⟩ := hpossible.reordered h
  obtain ⟨report, _, d₂, hpublished, hready, hrun⟩ :=
    perform_of_possible hout hstart hbegun hpossible
  obtain ⟨report', _, e₂, hpublished', -, hrun'⟩ :=
    perform_of_possible hout hstart hbegun hpossible'
  have hreport : report = report' :=
    report_reordered hout hstart hbegun h hpossible (by rw [hrun]) (by rw [hrun'])
  have hfiles := lastFile?_perm hperm (nodup_of_acceptAll? hpossible.accepted hpolicy).1
  rw [hrun, hrun', hreport]
  exact .of_same (fun _ => Iff.rfl)
    (hpublished.same hready (hpublished'.congr hfiles) hpossible.clear_written)

/-- If not everything is staged, not everything is in another order. -/
theorem alike_of_refused (hno : ∀ outs next, c.outputs naming = .ok outs →
      Emitter.acceptAll? { output } outs = some next →
        ∃ t ∈ outs, ¬ d₁.Fits base buffer output l t.name) :
    Alike base output naming c d
      (d.run (Conversion.perform (Storage.below base buffer) output naming c))
      (d.run (Conversion.perform (Storage.below base buffer) output naming c')) := by
  have hno' : ∀ outs' next, c'.outputs naming = .ok outs' →
      Emitter.acceptAll? { output } outs' = some next →
      ∃ t ∈ outs', ¬ d₁.Fits base buffer output l t.name := by
    intro outs' next houts' hnext'
    obtain ⟨outs, houts, hnext, hperm⟩ := outputs_reordered h.symm houts' hnext'
    obtain ⟨t, ht, hfits⟩ := hno outs next houts hnext
    exact ⟨t, hperm.mem_iff.2 ht, hfits⟩
  obtain ⟨stop, _, calls, d₂, hrun, hframed, hgives⟩ :=
    perform_of_refused_framed hout hstart hbegun hno
  obtain ⟨stop', _, calls', e₂, hrun', hframed', hgives'⟩ :=
    perform_of_refused_framed hout hstart hbegun hno'
  have hgives' : ∀ t ∈ calls', c.Gives naming c.keys t := fun t ht => h.gives.1 (hgives' t ht)
  rw [hrun, hrun']
  refine ⟨by simp, ?_, by simp, ?_⟩
  · intro k hk
    have hsuf : ¬ ".staging" :: l <:+ k := fun hsuf => hk ⟨l, hbegun.lead, hsuf⟩
    -- each of the two runs leaves what was found after the start, so they leave the same
    have hleft : ∀ {calls e} (stop : Stop), Framed base output l d₁ calls e →
        (match stop with
          | .failed _ => e.without (stagingPath base output)
          | .overflow => e).tree.find? k = d₁.tree.find? k := by
      intro calls e stop hframed
      cases stop with
      | failed failure => exact (hframed.discarded hout hbegun).outside k hsuf
      | overflow => exact hframed.outside k hsuf
    exact (hleft stop' hframed').trans (hleft stop hframed).symm
  · intro failure failure' hfailed hfailed' hfree
    obtain rfl : stop = .failed failure := Except.error.inj hfailed
    obtain rfl : stop' = .failed failure' := Except.error.inj hfailed'
    exact hframed.same hout hframed'
      (hframed.dirAt_of_not_obstructed hout hbegun hgives hfree)
      (hframed'.dirAt_of_not_obstructed hout hbegun hgives' hfree)

/-- If a directory is in the place of a file, the files of smaller names have taken theirs in every
order, and no others. -/
theorem alike_of_blocked (hpolicy : output.onCollision = .error)
    (houts : c.outputs naming = .ok outs)
    (hnext : Emitter.acceptAll? { output } outs = some next)
    (hfits : ∀ t ∈ outs, d₁.Fits base buffer output l t.name)
    (hblocked : ∃ t ∈ outs, d₁.tree.find? (fileName t.name :: l) = some .directory) :
    Alike base output naming c d
      (d.run (Conversion.perform (Storage.below base buffer) output naming c))
      (d.run (Conversion.perform (Storage.below base buffer) output naming c')) := by
  obtain ⟨outs', houts', hnext', hperm⟩ := outputs_reordered h houts hnext
  have hfits' : ∀ t ∈ outs', d₁.Fits base buffer output l t.name := fun t ht =>
    hfits t (hperm.mem_iff.2 ht)
  have hblocked' : ∃ t ∈ outs', d₁.tree.find? (fileName t.name :: l) = some .directory := by
    obtain ⟨t, ht, hdirectory⟩ := hblocked
    exact ⟨t, hperm.mem_iff.1 ht, hdirectory⟩
  obtain ⟨_, d₂, front, _, _, hsplit, hrun, hpublished, hready, hfront, hfirst⟩ :=
    perform_of_blocked hout hstart hbegun houts hnext hfits hblocked
  obtain ⟨_, e₂, front', _, _, hsplit', hrun', hpublished', -, hfront', hfirst'⟩ :=
    perform_of_blocked hout hstart hbegun houts' hnext' hfits' hblocked'
  -- the names are published in their own order, so both commits stop at the same one
  obtain rfl : front = front' := (takeWhile_of_split hsplit hfront hfirst).symm.trans
    (takeWhile_of_split hsplit' hfront' hfirst')
  have hfiles := lastFile?_perm hperm (nodup_of_acceptAll? hnext hpolicy).1
  rw [hrun, hrun']
  exact .of_same (by simp) (hpublished.same hready (hpublished'.congr hfiles) hfront)

end Reordered

/-- A run comes to the same in every order of the keys, where no name may be given twice. -/
theorem perform_reordered (hout : outputPath base output ≠ "")
    (hpolicy : output.onCollision = .error) (h : c.Reordered c') (d : Disk) :
    Alike base output naming c d
      (d.run (Conversion.perform (Storage.below base buffer) output naming c))
      (d.run (Conversion.perform (Storage.below base buffer) output naming c')) := by
  cases hstart : d.outcome (start (Storage.below base buffer) output) with
  | mk result d₁ =>
  cases result with
  | error stop =>
    -- nothing has been read yet
    rw [run_perform, run_perform, hstart]
    exact .of_same (fun _ => Iff.rfl) fun _ => rfl
  | ok emitter =>
  obtain ⟨rfl, l, hbegun⟩ := begun_of_start hout hstart
  rcases possible_or_refused_or_blocked base buffer output naming c l d₁ with
    ⟨outs, next, hpossible⟩ | hno | ⟨outs, next, houts, hnext, hfits, hblocked⟩
  · exact alike_of_possible hout h hstart hbegun hpolicy hpossible
  · exact alike_of_refused hout h hstart hbegun hno
  · exact alike_of_blocked hout h hstart hbegun hpolicy houts hnext hfits hblocked

/-- A conversion comes to the same in every order of the keys, where no name may be given twice. -/
theorem convert_reordered {config : Config} {converter : Converter (StateM Disk)}
    (hmake : d₀.outcome (Converter.ofConfig config) = (.ok converter, d₁))
    (hpolicy : config.output.onCollision = .error) (h : c.Reordered c') (d : Disk) :
    Alike "." config.output config.naming c d (d.run (converter.convert c))
      (d.run (converter.convert c')) := by
  obtain ⟨-, rfl⟩ := converter_of_config hmake
  simp only [convert_converterOf]
  exact perform_reordered (outputPath_ne_empty config.output) hpolicy h d

/-- Two tensors of one element, the second one first. -/
def twoReversed : Checkpoint := { twoTensors with keys := ["b", "a"] }

/-- Two tensors in either order. -/
theorem convert_reordered_two :
    blank.outcome (Converter.ofConfig outward.config) = (.ok outward, blank) ∧
      outward.config.output.onCollision = .error ∧ twoTensors.Reordered twoReversed ∧
      (blank.run (outward.convert twoTensors)).1.result = .ok ⟨2, 0, 2, 32, 0⟩ ∧
      Alike "." outward.config.output outward.config.naming twoTensors blank
        (blank.run (outward.convert twoTensors)) (blank.run (outward.convert twoReversed)) := by
  have hmake : blank.outcome (Converter.ofConfig outward.config) = (.ok outward, blank) :=
    outcome_ofConfig (by decide +kernel) (by decide +kernel)
  have hreordered : twoTensors.Reordered twoReversed := ⟨.swap "b" "a" [], rfl⟩
  exact ⟨hmake, rfl, hreordered, by decide +kernel, convert_reordered hmake rfl hreordered blank⟩

/-- The converter whose path to the output directory leads through the place where the file of `b`
goes first. -/
def entangled : Converter (StateM Disk) :=
  converterOf { output := { dir := ".staging/.b.bin.tmp/../.." } }

/-- In one order of the keys the file of `a` is staged before that of `b` is obstructed, and
remains. -/
theorem reordered_trees_differ :
    entangled.config.fault? = none ∧ entangled.config.output.onCollision = .error ∧
      twoTensors.keys.Nodup ∧ twoTensors.Reordered twoReversed ∧
      ¬ FileTree.Same (blank.run (entangled.convert twoReversed)).2.tree
        (blank.run (entangled.convert twoTensors)).2.tree := by
  refine ⟨by decide +kernel, rfl, by decide +kernel, ⟨.swap "b" "a" [], rfl⟩, ?_⟩
  intro hsame
  have hremains : (blank.run (entangled.convert twoTensors)).2.tree.find? ["a.bin", ".staging"] ≠
      none ∧
        (blank.run (entangled.convert twoReversed)).2.tree.find? ["a.bin", ".staging"] = none := by
    decide +kernel
  exact hremains.1 ((hsame ["a.bin", ".staging"]).symm.trans hremains.2)

end Disk

end FlatWeights
