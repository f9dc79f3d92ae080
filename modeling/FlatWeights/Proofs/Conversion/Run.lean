import FlatWeights.Converter
import FlatWeights.Proofs.Emitter.Commit

/-!
A run over the keys of a checkpoint. `Checkpoint.outputs` is what the run gives to the emitter, in
order. Whether all of it is staged is a matter of the emitter alone (`acceptAll?`) and of the names
on the disk (`Disk.Fits`), so that a run can be compared with another one on a different disk.
-/

set_option autoImplicit false

namespace FlatWeights

open Emitter

/-! ## What is to be written -/

/-- The outputs of the tensors of some keys, in the order of the keys. -/
def Checkpoint.outputsOf (c : Checkpoint) (naming : Naming) :
    List String → Except Stop (List OutputTensor)
  | [] => .ok []
  | key :: rest => do
    let outputs ← c.get key >>= naming.resolve
    return outputs ++ (← c.outputsOf naming rest)

/-- The outputs of all tensors of a checkpoint, in the order of the keys. -/
def Checkpoint.outputs (c : Checkpoint) (naming : Naming) : Except Stop (List OutputTensor) :=
  c.outputsOf naming c.keys

/-- The outputs of the tensors of some keys, up to the first tensor that is not to be had. -/
def Checkpoint.resolvedOf (c : Checkpoint) (naming : Naming) : List String → List OutputTensor
  | [] => []
  | key :: rest =>
    match c.get key >>= naming.resolve with
    | .error _ => []
    | .ok outputs => outputs ++ c.resolvedOf naming rest

/-- The outputs of the tensors of a checkpoint, up to the first tensor that is not to be had. -/
def Checkpoint.resolved (c : Checkpoint) (naming : Naming) : List OutputTensor :=
  c.resolvedOf naming c.keys

/-- The outputs of several keys are those of the first and those of the rest. -/
theorem Checkpoint.outputsOf_cons_eq_ok_iff {c : Checkpoint} {naming : Naming} {key : String}
    {rest : List String} {all : List OutputTensor} :
    c.outputsOf naming (key :: rest) = .ok all ↔ ∃ outputs later,
      (c.get key >>= naming.resolve) = .ok outputs ∧ c.outputsOf naming rest = .ok later ∧
        all = outputs ++ later := by
  rw [Checkpoint.outputsOf]
  cases c.get key >>= naming.resolve with
  | error stop => simp [bind, Except.bind]
  | ok outputs =>
    cases c.outputsOf naming rest with
    | error stop => simp [bind, Except.bind]
    | ok later => simp [bind, Except.bind, pure, Except.pure, eq_comm]

/-- Keys with the same tensors have the same outputs. -/
theorem Checkpoint.outputsOf_congr {c c' : Checkpoint} {keys : List String}
    (h : ∀ key ∈ keys, c'.get key = c.get key) (naming : Naming) :
    c'.outputsOf naming keys = c.outputsOf naming keys := by
  induction keys with
  | nil => rfl
  | cons key keys ih =>
    obtain ⟨hkey, hkeys⟩ := List.forall_mem_cons.1 h
    rw [outputsOf, outputsOf, hkey, ih hkeys]

/-- The outputs of each tensor are among those of all. -/
theorem Checkpoint.exists_outputs_of_mem {c : Checkpoint} {naming : Naming} {keys : List String}
    {all : List OutputTensor} (h : c.outputsOf naming keys = .ok all) {key : String}
    (hkey : key ∈ keys) :
    ∃ outputs, (c.get key >>= naming.resolve) = .ok outputs ∧ ∀ t ∈ outputs, t ∈ all := by
  induction keys generalizing all with
  | nil => exact absurd hkey (by simp)
  | cons first rest ih =>
    obtain ⟨outputs, later, hfirst, hlater, rfl⟩ := outputsOf_cons_eq_ok_iff.1 h
    rcases List.mem_cons.1 hkey with rfl | hkey
    · exact ⟨outputs, hfirst, fun t ht => List.mem_append_left _ ht⟩
    · obtain ⟨outputs', houtputs', hmem⟩ := ih hlater hkey
      exact ⟨outputs', houtputs', fun t ht => List.mem_append_right _ (hmem t ht)⟩

/-! ## What an emitter makes of it -/

/-- The emitter once all tensors are staged, if nothing but the disk can stand in the way. -/
def Emitter.acceptAll? (emitter : Emitter) (outs : List OutputTensor) : Option Emitter :=
  outs.foldlM accept? emitter

variable {emitter next : Emitter} {t : OutputTensor} {outs later : List OutputTensor}

/-- Outputs are accepted one after the other. -/
theorem Emitter.acceptAll?_append : emitter.acceptAll? (outs ++ later) =
    (emitter.acceptAll? outs).bind fun next => next.acceptAll? later :=
  List.foldlM_append ..

theorem Emitter.acceptAll?_cons : emitter.acceptAll? (t :: outs) =
    (emitter.accept? t).bind fun next => next.acceptAll? outs :=
  List.foldlM_cons ..

theorem Emitter.accept?_output (h : emitter.accept? t = some next) :
    next.output = emitter.output := by
  obtain ⟨header, total, -, -, -, rfl⟩ := accept?_eq_some_iff.1 h
  rfl

/-- The settings stay what they were. -/
theorem Emitter.acceptAll?_output (h : emitter.acceptAll? outs = some next) :
    next.output = emitter.output := by
  induction outs generalizing emitter with
  | nil =>
    obtain rfl : emitter = next := Option.some.inj h
    rfl
  | cons t outs ih =>
    rw [acceptAll?_cons] at h
    obtain ⟨first, hfirst, hrest⟩ := Option.bind_eq_some_iff.1 h
    rw [ih hrest, accept?_output hfirst]

/-- The names that are written in the end are those of the outputs and those that were written
before. -/
theorem Emitter.mem_written_of_acceptAll? (h : emitter.acceptAll? outs = some next) {x : String} :
    x ∈ next.written.toList ↔ x ∈ emitter.written.toList ∨ ∃ t ∈ outs, t.name = x := by
  induction outs generalizing emitter with
  | nil =>
    obtain rfl : emitter = next := Option.some.inj h
    simp
  | cons t outs ih =>
    rw [acceptAll?_cons] at h
    obtain ⟨first, hfirst, hrest⟩ := Option.bind_eq_some_iff.1 h
    obtain ⟨header, total, -, -, -, rfl⟩ := accept?_eq_some_iff.1 hfirst
    rw [ih hrest]
    change x ∈ (emitter.noted t.name).toList ∨ _ ↔ _
    rw [mem_noted]
    constructor
    · rintro ((rfl | hx) | ⟨t', ht', rfl⟩)
      · exact .inr ⟨t, by simp, rfl⟩
      · exact .inl hx
      · exact .inr ⟨t', by simp [ht'], rfl⟩
    · rintro (hx | ⟨t', ht', rfl⟩)
      · exact .inl (.inr hx)
      · rcases List.mem_cons.1 ht' with rfl | ht'
        · exact .inl (.inl rfl)
        · exact .inr ⟨t', ht', rfl⟩

/-- The header of every tensor that is accepted counts its bytes. -/
theorem Emitter.exists_payload_of_acceptAll? (h : emitter.acceptAll? outs = some next)
    (ht : t ∈ outs) : ∃ header n, WeightFile.Header.ofDims? t.dims = some header ∧
      header.payloadLength? = some n := by
  induction outs generalizing emitter with
  | nil => exact absurd ht (by simp)
  | cons first outs ih =>
    rw [acceptAll?_cons] at h
    obtain ⟨second, hfirst, hrest⟩ := Option.bind_eq_some_iff.1 h
    rcases List.mem_cons.1 ht with rfl | ht
    · obtain ⟨header, total, hheader, htotal, -⟩ := accept?_eq_some_iff.1 hfirst
      obtain ⟨n, hn, -⟩ := Option.bind_eq_some_iff.1 htotal
      exact ⟨header, n, hheader, hn⟩
    · exact ih hrest ht

/-- Where a name may not be written twice, it was not. -/
theorem Emitter.nodup_of_acceptAll? (h : emitter.acceptAll? outs = some next)
    (hpolicy : emitter.output.onCollision = .error) :
    (outs.map (·.name)).Nodup ∧ ∀ t ∈ outs, t.name ∉ emitter.written.toList := by
  induction outs generalizing emitter with
  | nil => simp
  | cons t outs ih =>
    rw [acceptAll?_cons] at h
    obtain ⟨first, hfirst, hrest⟩ := Option.bind_eq_some_iff.1 h
    obtain ⟨header, total, -, -, ⟨-, hmay⟩, rfl⟩ := accept?_eq_some_iff.1 hfirst
    obtain ⟨hnodup, hnew⟩ := ih hrest hpolicy
    -- the first name is noted before the others are asked for, so they avoid it
    have hlater : ∀ t' ∈ outs, t'.name ≠ t.name ∧ t'.name ∉ emitter.written.toList := by
      intro t' ht'
      have hnot := hnew t' ht'
      change t'.name ∉ (emitter.noted t.name).toList at hnot
      rw [mem_noted, not_or] at hnot
      exact hnot
    have hfresh : t.name ∉ emitter.written.toList := by
      intro hmem
      have hwarn := hmay (NameSet.contains_iff.2 hmem)
      rw [hpolicy] at hwarn
      exact absurd hwarn (by simp)
    refine ⟨?_, ?_⟩
    · rw [List.map_cons, List.nodup_cons, List.mem_map]
      refine ⟨?_, hnodup⟩
      rintro ⟨t', ht', heq⟩
      exact (hlater t' ht').1 heq
    · intro t' ht'
      rcases List.mem_cons.1 ht' with rfl | ht'
      · exact hfresh
      · exact (hlater t' ht').2

/-- The run once the outputs of one more tensor are staged, with the position that was reached. -/
def Conversion.passed (run : Conversion) (outputs : List OutputTensor) (emitter : Emitter)
    (progress : Progress (List String)) : Conversion :=
  { run.counted outputs with
    emitter, milestones := (progress.position, progress.total) :: run.milestones }

section Passed

variable (run : Conversion) (outputs : List OutputTensor) (emitter : Emitter)
  (progress : Progress (List String))

@[simp]
theorem Conversion.passed_emitter : (run.passed outputs emitter progress).emitter = emitter := rfl

@[simp]
theorem Conversion.passed_milestones : (run.passed outputs emitter progress).milestones =
    (progress.position, progress.total) :: run.milestones := rfl

@[simp]
theorem Conversion.passed_tensorsRead :
    (run.passed outputs emitter progress).tensorsRead = run.tensorsRead + 1 := rfl

@[simp]
theorem Conversion.passed_tensorsDropped : (run.passed outputs emitter progress).tensorsDropped =
    run.tensorsDropped + if outputs.isEmpty then 1 else 0 := rfl

end Passed

namespace Disk

variable {d d₁ e : Disk} {base : Path} {buffer : Nat} {output : OutputSettings} {l : Location}

/-! ## Programs of a run -/

variable {storage : Storage (StateM Disk)} {checkpoint : Checkpoint} {naming : Naming}
  {run : Conversion} {keys : List String} {key : String}

/-- The tensor of a key is read and resolved before anything is staged. -/
theorem run_convertKey (milestone : Nat × Nat) :
    d.run (Conversion.convertKey storage naming checkpoint key milestone run) =
      match checkpoint.get key >>= naming.resolve with
      | .error stop => ((.error stop, run), d)
      | .ok outputs =>
        match d.emitted run.emitter (Conversion.emitAll storage outputs) with
        | ((.error stop, emitter), e) =>
          ((.error stop, { run.counted outputs with emitter }), e)
        | ((.ok _, emitter), e) =>
          ((.ok (), { run.counted outputs with
            emitter, milestones := milestone :: run.milestones }), e) := by
  rw [Conversion.convertKey]
  cases checkpoint.get key >>= naming.resolve with
  | error stop => rfl
  | ok outputs =>
    simp only [run_bind, emitted, Conversion.counted]
    generalize d.run ((Conversion.emitAll storage outputs).run.run run.emitter) = emission
    obtain ⟨⟨result, emitter⟩, e⟩ := emission
    cases result with
    | error stop => rfl
    | ok answer => rfl

/-- Keys are converted one after the other, the rest only if the first is. -/
theorem run_convertKeys_cons (progress : Progress (List String)) :
    d.run (Conversion.convertKeys storage naming checkpoint (key :: keys) progress run) =
      match d.run (Conversion.convertKey storage naming checkpoint key
          ((progress.next Source.exact).2.position, (progress.next Source.exact).2.total) run) with
      | ((.error stop, run), e) => ((.error stop, run), e)
      | ((.ok _, run), e) => e.run (Conversion.convertKeys storage naming checkpoint keys
          (progress.next Source.exact).2 run) := by
  rw [Conversion.convertKeys]
  simp only [run_bind]
  generalize d.run (Conversion.convertKey storage naming checkpoint key
    ((progress.next Source.exact).2.position, (progress.next Source.exact).2.total) run) = outcome
  obtain ⟨⟨result, run⟩, e⟩ := outcome
  cases result with
  | error stop => rfl
  | ok answer => rfl

/-- One key of a run: its tensor is read and resolved, the outputs are staged, and the others
follow. -/
theorem run_convertKeys_step (progress : Progress (List String)) :
    d.run (Conversion.convertKeys storage naming checkpoint (key :: keys) progress run) =
      match checkpoint.get key >>= naming.resolve with
      | .error stop => ((.error stop, run), d)
      | .ok outputs =>
        match d.emitted run.emitter (Conversion.emitAll storage outputs) with
        | ((.error stop, emitter), e) =>
          ((.error stop, { run.counted outputs with emitter }), e)
        | ((.ok _, emitter), e) => e.run (Conversion.convertKeys storage naming checkpoint keys
            (progress.next Source.exact).2
            (run.passed outputs emitter (progress.next Source.exact).2)) := by
  rw [run_convertKeys_cons, run_convertKey]
  cases checkpoint.get key >>= naming.resolve with
  | error stop => rfl
  | ok outputs =>
    simp only
    obtain ⟨⟨result, emitter⟩, e⟩ := d.emitted run.emitter (Conversion.emitAll storage outputs)
    cases result with
    | error stop => rfl
    | ok answer => rfl

section Run

variable (hout : outputPath base output ≠ "")
  (h₁ : d₁.DirAt (stagingPath base output) (".staging" :: l))
  (hinside : ∀ x content, d₁.tree.find? (x :: ".staging" :: l) ≠ some (.file content))

include hout h₁ hinside

/-! ## The outputs of one tensor -/

/-- Outputs that are accepted and fit are staged, all of them. -/
theorem emitAll_of_accepted (h : Staged base output l d₁ outs d) (houtput : emitter.output = output)
    (hnext : emitter.bare.acceptAll? later = some next)
    (hfits : ∀ t ∈ later, d₁.Fits base buffer output l t.name) :
    ∃ emitter' e, d.emitted emitter (Conversion.emitAll (Storage.below base buffer) later) =
        ((.ok (), emitter'), e) ∧
      emitter'.bare = next ∧ Staged base output l d₁ (outs ++ later) e := by
  -- each output is staged on what those before it have left
  induction later generalizing outs d emitter with
  | nil =>
    refine ⟨emitter, d, rfl, Option.some.inj hnext, ?_⟩
    rwa [List.append_nil]
  | cons t later ih =>
    rw [acceptAll?_cons] at hnext
    obtain ⟨first, hfirst, hrest⟩ := Option.bind_eq_some_iff.1 hnext
    obtain ⟨emitter', d', hemit, rfl, hstaged⟩ :=
      emit_of_accepted hout h₁ hinside h houtput hfirst (hfits t (by simp))
    have houtput' : emitter'.output = output := (accept?_output hfirst).trans houtput
    obtain ⟨emitter'', e, hall, hbare, hlast⟩ :=
      ih hstaged houtput' hrest fun t' ht' => hfits t' (by simp [ht'])
    refine ⟨emitter'', e, ?_, hbare, ?_⟩
    · rw [Conversion.emitAll, emitted_bind_ok hemit, hall]
    · rwa [List.append_assoc] at hlast

/-- Outputs that are not all accepted or do not all fit are staged up to one that is not. -/
theorem emitAll_of_refused (later : List OutputTensor) (h : Staged base output l d₁ outs d)
    (houtput : emitter.output = output)
    (hno : ∀ next, emitter.bare.acceptAll? later = some next →
      ∃ t ∈ later, ¬ d₁.Fits base buffer output l t.name) :
    ∃ stop emitter' e done t rest,
      d.emitted emitter (Conversion.emitAll (Storage.below base buffer) later) =
        ((.error stop, emitter'), e) ∧
      later = done ++ t :: rest ∧ Halted base output l d₁ (outs ++ done) t stop e := by
  induction later generalizing outs d emitter with
  | nil =>
    obtain ⟨t, ht, -⟩ := hno emitter.bare rfl
    exact absurd ht (by simp)
  | cons t later ih =>
    -- either the first output is staged and one of the others is not, or it is the one that is not
    by_cases hfirst :
      ∃ first, emitter.bare.accept? t = some first ∧ d₁.Fits base buffer output l t.name
    · obtain ⟨first, hfirst, hfits⟩ := hfirst
      obtain ⟨emitter', d', hemit, rfl, hstaged⟩ :=
        emit_of_accepted hout h₁ hinside h houtput hfirst hfits
      have houtput' : emitter'.output = output := (accept?_output hfirst).trans houtput
      obtain ⟨stop, emitter'', e, done, t', rest, hall, rfl, hhalted⟩ :=
        ih hstaged houtput' fun next hnext => by
          obtain ⟨t', ht', hfits'⟩ := hno next (by rw [acceptAll?_cons, hfirst]; exact hnext)
          rcases List.mem_cons.1 ht' with rfl | ht'
          · exact absurd hfits hfits'
          · exact ⟨t', ht', hfits'⟩
      refine ⟨stop, emitter'', e, t :: done, t', rest, ?_, rfl, ?_⟩
      · rw [Conversion.emitAll, emitted_bind_ok hemit, hall]
      · rwa [List.append_assoc] at hhalted
    · obtain ⟨stop, emitter', e, hemit, hhalted⟩ :=
        emit_of_refused hout h₁ hinside h houtput fun next hnext hfits =>
          hfirst ⟨next, hnext, hfits⟩
      refine ⟨stop, emitter', e, [], t, later, ?_, rfl, by rwa [List.append_nil]⟩
      rw [Conversion.emitAll, emitted_bind_error hemit]

/-! ## The tensors of all keys -/

/-- All outputs are staged if the emitter accepts them and they fit. -/
theorem convertKeys_of_accepted (progress : Progress (List String)) (run : Conversion)
    (h : Staged base output l d₁ outs d) (houtput : run.emitter.output = output)
    (houts : checkpoint.outputsOf naming keys = .ok later)
    (hnext : run.emitter.bare.acceptAll? later = some next)
    (hfits : ∀ t ∈ later, d₁.Fits base buffer output l t.name) :
    ∃ run' e, d.run (Conversion.convertKeys (Storage.below base buffer) naming checkpoint keys
      progress
        run) = ((.ok (), run'), e) ∧
      run'.emitter.bare = next ∧ Staged base output l d₁ (outs ++ later) e := by
  induction keys generalizing outs later d run progress with
  | nil =>
    obtain rfl : [] = later := Except.ok.inj houts
    refine ⟨run, d, rfl, Option.some.inj hnext, ?_⟩
    rwa [List.append_nil]
  | cons key keys ih =>
    obtain ⟨outputs, rest, hkey, hrest, rfl⟩ := Checkpoint.outputsOf_cons_eq_ok_iff.1 houts
    rw [acceptAll?_append] at hnext
    obtain ⟨first, hfirst, hsecond⟩ := Option.bind_eq_some_iff.1 hnext
    obtain ⟨emitter', d', hall, rfl, hstaged⟩ :=
      emitAll_of_accepted hout h₁ hinside h houtput hfirst fun t ht => hfits t (by simp [ht])
    have houtput' : emitter'.output = output := (acceptAll?_output hfirst).trans houtput
    obtain ⟨run', e, hkeys, hbare, hlast⟩ :=
      ih (progress.next Source.exact).2
        (run.passed outputs emitter' (progress.next Source.exact).2) hstaged houtput' hrest hsecond
        fun t ht => hfits t (by simp [ht])
    refine ⟨run', e, ?_, hbare, ?_⟩
    · rw [run_convertKeys_step, hkey]
      simp only [hall]
      exact hkeys
    · rwa [List.append_assoc] at hlast

/-- A run whose outputs are not all to be had, or not all accepted, or do not all fit, is stopped by
an output that is not staged, or by a tensor that is not to be had. -/
theorem convertKeys_of_refused (progress : Progress (List String)) (run : Conversion)
    (h : Staged base output l d₁ outs d) (houtput : run.emitter.output = output)
    (hno : ∀ later next, checkpoint.outputsOf naming keys = .ok later →
      run.emitter.bare.acceptAll? later = some next →
      ∃ t ∈ later, ¬ d₁.Fits base buffer output l t.name) :
    ∃ stop run' e, d.run (Conversion.convertKeys (Storage.below base buffer) naming checkpoint keys
        progress run) = ((.error stop, run'), e) ∧
      ((∃ done t rest, checkpoint.resolvedOf naming keys = done ++ t :: rest ∧
          Halted base output l d₁ (outs ++ done) t stop e) ∨
        checkpoint.outputsOf naming keys = .error stop ∧
          Staged base output l d₁ (outs ++ checkpoint.resolvedOf naming keys) e) := by
  induction keys generalizing outs d run progress with
  | nil =>
    obtain ⟨t, ht, -⟩ := hno [] run.emitter.bare rfl rfl
    exact absurd ht (by simp)
  | cons key keys ih =>
    rw [run_convertKeys_step, Checkpoint.resolvedOf, Checkpoint.outputsOf]
    cases hkey : checkpoint.get key >>= naming.resolve with
    | error stop => exact ⟨stop, run, d, rfl, .inr ⟨rfl, by rwa [List.append_nil]⟩⟩
    | ok outputs =>
      simp only
      -- either all outputs of this key are staged and the run is stopped later, or it is stopped
      -- here
      by_cases hfirst : ∃ first, run.emitter.bare.acceptAll? outputs = some first ∧
          ∀ t ∈ outputs, d₁.Fits base buffer output l t.name
      · obtain ⟨first, hfirst, hfits⟩ := hfirst
        obtain ⟨emitter', d', hall, rfl, hstaged⟩ :=
          emitAll_of_accepted hout h₁ hinside h houtput hfirst hfits
        have houtput' : emitter'.output = output := (acceptAll?_output hfirst).trans houtput
        have hno' : ∀ later next, checkpoint.outputsOf naming keys = .ok later →
            emitter'.bare.acceptAll? later = some next →
            ∃ t ∈ later, ¬ d₁.Fits base buffer output l t.name := by
          intro later next hlater hnext
          obtain ⟨t, ht, hfits'⟩ := hno (outputs ++ later) next
            (Checkpoint.outputsOf_cons_eq_ok_iff.2 ⟨outputs, later, hkey, hlater, rfl⟩)
            (by rw [acceptAll?_append, hfirst]; exact hnext)
          rcases List.mem_append.1 ht with ht | ht
          · exact absurd (hfits t ht) hfits'
          · exact ⟨t, ht, hfits'⟩
        obtain ⟨stop, run', e, hkeys, hleft⟩ :=
          ih (progress.next Source.exact).2
            (run.passed outputs emitter' (progress.next Source.exact).2) hstaged houtput' hno'
        refine ⟨stop, run', e, by rw [hall]; exact hkeys, ?_⟩
        rcases hleft with ⟨done, t, rest, hresolved, hhalted⟩ | ⟨herror, hlast⟩
        · refine .inl ⟨outputs ++ done, t, rest, ?_, ?_⟩
          · rw [hresolved, List.append_assoc]
          · rwa [List.append_assoc] at hhalted
        · refine .inr ⟨by rw [herror]; rfl, ?_⟩
          rwa [List.append_assoc] at hlast
      · obtain ⟨stop, emitter', e, done, t, rest, hall, rfl, hhalted⟩ :=
          emitAll_of_refused hout h₁ hinside outputs h houtput fun next hnext => by
            by_contra hall
            exact hfirst ⟨next, hnext, fun t ht => by_contra fun hfits => hall ⟨t, ht, hfits⟩⟩
        rw [hall]
        refine ⟨stop, _, e, rfl, .inl ⟨done, t, rest ++ checkpoint.resolvedOf naming keys, ?_,
          hhalted⟩⟩
        rw [List.append_assoc, List.cons_append]

end Run

end Disk

end FlatWeights
