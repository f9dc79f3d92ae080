import FlatWeights.Proofs.Conversion.Effect
import FlatWeights.Proofs.Conversion.Report

/-!
The first failure of a run. The keys of a checkpoint are gone through in order, and each either
passes, with all its outputs staged, or spoils the run: its tensor cannot be read, or not be
resolved, or one of its outputs is not staged after those before it. The run goes as far as the
first one that spoils it, and ends with that failure and the positions of those that passed
(`perform_of_failsFirst`); what comes after it plays no part. This is so on any storage.

Every position is noted with the number of all keys. The total would be raised by a count that
passes it, but the source of the keys knows how many it has left (`Progress.At`).
-/

set_option autoImplicit false

namespace FlatWeights

open Emitter

/-! ## The way through the keys -/

/-- So many keys out of a number of them are behind, and these are left. -/
structure Progress.At (passed total : Nat) (left : List String) (p : Progress (List String)) :
    Prop where
  eq : p = ⟨left, passed, total⟩
  count : passed + left.length = total

namespace Progress

variable {passed total : Nat} {key : String} {left : List String} {p : Progress (List String)}

/-- Counting starts before the first key. -/
theorem at_start (keys : List String) : (start Source.exact keys).At 0 keys.length keys :=
  ⟨rfl, Nat.zero_add _⟩

/-- Each key is counted, and the total stays as it is. -/
theorem At.next (h : p.At passed total (key :: left)) :
    (p.next Source.exact).2.At (passed + 1) total left := by
  obtain ⟨rfl, hcount⟩ := h
  rw [List.length_cons] at hcount
  refine ⟨?_, by omega⟩
  simp only [Progress.next, Source.exact]
  rw [Nat.max_eq_left (by omega)]

end Progress

namespace Disk

variable {d d₁ : Disk} {storage : Storage (StateM Disk)} {emitter : Emitter} {naming : Naming}
  {checkpoint other : Checkpoint} {output : OutputSettings} {keys front back : List String}
  {key : String} {calls before last : List OutputTensor} {stop : Stop}

/-! ## Keys that pass, and keys that spoil a run -/

/-- The tensors of some keys are all read and resolved, and their outputs are all staged. -/
structure Passes (d : Disk) (storage : Storage (StateM Disk)) (emitter : Emitter) (naming : Naming)
    (checkpoint : Checkpoint) (keys : List String) (calls : List OutputTensor) : Prop where
  outputs : checkpoint.outputsOf naming keys = .ok calls
  staged : d.AllStaged storage emitter calls

/-- The tensor of a key cannot be read, or not be resolved, or one of its outputs is not staged
after those before it, for the given reason. With it go the outputs that the emitter is given until
then. -/
inductive Spoils (d : Disk) (storage : Storage (StateM Disk)) (emitter : Emitter) (naming : Naming)
    (checkpoint : Checkpoint) (key : String) : List OutputTensor → Stop → Prop
  | unread {stop : Stop} (hget : checkpoint.get key = .error stop) :
    Spoils d storage emitter naming checkpoint key [] stop
  | unresolved {raw : RawTensor} {stop : Stop} (hget : checkpoint.get key = .ok raw)
    (hresolve : naming.resolve raw = .error stop) :
    Spoils d storage emitter naming checkpoint key [] stop
  | unstaged {raw : RawTensor} {front back : List OutputTensor} {t : OutputTensor} {stop : Stop}
    (hget : checkpoint.get key = .ok raw)
    (hresolve : naming.resolve raw = .ok (front ++ t :: back))
    (hstaged : d.AllStaged storage emitter front)
    (hemit : ((d.offered storage emitter front).2.emitted (d.offered storage emitter front).1.2
      (emit storage t)).1.1 = .error stop) :
    Spoils d storage emitter naming checkpoint key (front ++ [t]) stop

/-- All keys in front of a key pass, and the key spoils the run. -/
structure FailsFirst (d : Disk) (storage : Storage (StateM Disk)) (emitter : Emitter)
    (naming : Naming) (checkpoint : Checkpoint) (front : List String) (key : String)
    (before last : List OutputTensor) (stop : Stop) : Prop where
  passed : d.Passes storage emitter naming checkpoint front before
  spoiled : (d.offered storage emitter before).2.Spoils storage
    (d.offered storage emitter before).1.2 naming checkpoint key last stop

/-- A key passes or spoils the run. -/
theorem passes_or_spoils (d : Disk) (storage : Storage (StateM Disk)) (emitter : Emitter)
    (naming : Naming) (checkpoint : Checkpoint) (key : String) :
    (∃ outputs, (checkpoint.get key >>= naming.resolve) = .ok outputs ∧
        d.AllStaged storage emitter outputs) ∨
      ∃ last stop, d.Spoils storage emitter naming checkpoint key last stop := by
  cases hget : checkpoint.get key with
  | error stop => exact .inr ⟨[], stop, .unread hget⟩
  | ok raw =>
  cases hresolve : naming.resolve raw with
  | error stop => exact .inr ⟨[], stop, .unresolved hget hresolve⟩
  | ok outputs =>
  rcases allStaged_or d storage emitter outputs with
    hall | ⟨front, t, back, stop, rfl, hfront, hstop⟩
  · exact .inl ⟨outputs, hresolve, hall⟩
  · exact .inr ⟨front ++ [t], stop, .unstaged hget hresolve hfront hstop⟩

theorem passes_nil : d.Passes storage emitter naming checkpoint [] [] := ⟨rfl, allStaged_nil⟩

/-- Keys pass if the first is resolved and staged and the rest pass after it. -/
theorem passes_cons_iff : d.Passes storage emitter naming checkpoint (key :: keys) calls ↔
    ∃ outputs later, calls = outputs ++ later ∧
      (checkpoint.get key >>= naming.resolve) = .ok outputs ∧
      d.AllStaged storage emitter outputs ∧
      (d.offered storage emitter outputs).2.Passes storage
        (d.offered storage emitter outputs).1.2 naming checkpoint keys later := by
  constructor
  · rintro ⟨houts, hstaged⟩
    obtain ⟨outputs, later, hkey, hlater, rfl⟩ := Checkpoint.outputsOf_cons_eq_ok_iff.1 houts
    obtain ⟨hfirst, hrest⟩ := allStaged_append.1 hstaged
    exact ⟨outputs, later, rfl, hkey, hfirst, hlater, hrest⟩
  · rintro ⟨outputs, later, rfl, hkey, hfirst, hlater, hrest⟩
    exact ⟨Checkpoint.outputsOf_cons_eq_ok_iff.2 ⟨outputs, later, hkey, hlater, rfl⟩,
      allStaged_append.2 ⟨hfirst, hrest⟩⟩

/-- All keys pass, or there is a first one that spoils the run. -/
theorem passes_or_failsFirst (d : Disk) (storage : Storage (StateM Disk)) (emitter : Emitter)
    (naming : Naming) (checkpoint : Checkpoint) (keys : List String) :
    (∃ calls, d.Passes storage emitter naming checkpoint keys calls) ∨
      ∃ front key back before last stop, keys = front ++ key :: back ∧
        d.FailsFirst storage emitter naming checkpoint front key before last stop := by
  induction keys generalizing d emitter with
  | nil => exact .inl ⟨[], passes_nil⟩
  | cons key keys ih =>
    rcases passes_or_spoils d storage emitter naming checkpoint key with
      ⟨outputs, hkey, hstaged⟩ | ⟨last, stop, hspoils⟩
    · rcases ih (d.offered storage emitter outputs).2 (d.offered storage emitter outputs).1.2 with
        ⟨calls, hpasses⟩ | ⟨front, key', back, before, last, stop, rfl, hpassed, hspoiled⟩
      · exact .inl ⟨outputs ++ calls, passes_cons_iff.2 ⟨_, _, rfl, hkey, hstaged, hpasses⟩⟩
      · refine .inr ⟨key :: front, key', back, outputs ++ before, last, stop, rfl, ?_, ?_⟩
        · exact passes_cons_iff.2 ⟨_, _, rfl, hkey, hstaged, hpassed⟩
        · rwa [offered_append]
    · exact .inr ⟨[], key, keys, [], last, stop, rfl, passes_nil, hspoils⟩

/-! ## The tensors of all keys -/

/-- Keys that pass are converted, their positions are noted, and the others are left. -/
theorem convertKeys_of_passes {passed total : Nat} {progress : Progress (List String)}
    (run : Conversion) (h : d.Passes storage run.emitter naming checkpoint front calls)
    (hat : progress.At passed total (front ++ back)) :
    ∃ progress' run', progress'.At (passed + front.length) total back ∧
      run'.emitter = (d.offered storage run.emitter calls).1.2 ∧
      run'.milestones.reverse = run.milestones.reverse ++
        (List.range' (passed + 1) front.length).map (fun i => (i, total)) ∧
      d.run (Conversion.convertKeys storage naming checkpoint (front ++ back) progress run) =
        (d.offered storage run.emitter calls).2.run
          (Conversion.convertKeys storage naming checkpoint back progress' run') := by
  -- the induction is on the keys that pass; `passed` counts those in front of them
  induction front generalizing d passed progress run calls with
  | nil =>
    obtain rfl : [] = calls := Except.ok.inj h.outputs
    exact ⟨progress, run, hat, rfl, by simp, rfl⟩
  | cons key front ih =>
    obtain ⟨outputs, later, rfl, hkey, hstaged, hpasses⟩ := passes_cons_iff.1 h
    have hnext := Progress.At.next hat
    have hall := emitAll_of_staged hstaged []
    rw [List.append_nil] at hall
    obtain ⟨progress', run', hat', hemitter, hmilestones, hrun⟩ := ih
      (run.passed outputs (d.offered storage run.emitter outputs).1.2
        (progress.next Source.exact).2) hpasses hnext
    refine ⟨progress', run', ?_, ?_, ?_, ?_⟩
    · rwa [List.length_cons, Nat.add_comm front.length, ← Nat.add_assoc]
    · rw [hemitter, Conversion.passed_emitter, offered_append]
    · rw [hmilestones, hnext.eq, List.length_cons, List.range'_succ]
      simp
    · rw [List.cons_append, run_convertKeys_step, hkey, offered_append]
      simp only [hall]
      exact hrun

/-- A key that spoils a run ends it, and its position is not noted. -/
theorem convertKeys_of_spoils (back : List String) (progress : Progress (List String))
    {run : Conversion} (h : d.Spoils storage run.emitter naming checkpoint key last stop) :
    ∃ run', run'.milestones = run.milestones ∧
      d.run (Conversion.convertKeys storage naming checkpoint (key :: back) progress run) =
        ((.error stop, run'), (d.offered storage run.emitter last).2) := by
  rw [run_convertKeys_step]
  -- each way to spoil a run is one exit of the step
  cases h with
  | unread hget =>
    rw [hget]
    exact ⟨run, rfl, rfl⟩
  | unresolved hget hresolve =>
    have hkey : (checkpoint.get key >>= naming.resolve) = .error stop := by
      rw [hget]
      exact hresolve
    rw [hkey]
    exact ⟨run, rfl, rfl⟩
  | unstaged hget hresolve hstaged hemit =>
    rename_i raw before later t
    have hkey : (checkpoint.get key >>= naming.resolve) = .ok (before ++ t :: later) := by
      rw [hget]
      exact hresolve
    rw [hkey]
    simp only [emitAll_of_unstaged hstaged hemit later]
    exact ⟨{ run.counted (before ++ t :: later) with
      emitter := (d.offered storage run.emitter (before ++ [t])).1.2 }, rfl, rfl⟩

/-! ## The run -/

/-- The disk after a run that was stopped: what was staged is discarded, unless it stopped for
good. -/
def discarding (d : Disk) (storage : Storage (StateM Disk)) (output : OutputSettings) : Stop → Disk
  | .failed _ => (d.run (abort storage output)).2
  | .overflow => d

/-- A run whose keys all pass notes all positions, and fails only if the commit does. -/
theorem perform_of_passes (hstart : d.outcome (start storage output) = (.ok emitter, d₁))
    (h : d₁.Passes storage emitter naming checkpoint checkpoint.keys calls) :
    let ended := d.run (Conversion.perform storage output naming checkpoint)
    let given := d₁.offered storage emitter calls
    ended.1.milestones =
        (List.range' 1 checkpoint.keys.length).map (fun i => (i, checkpoint.keys.length)) ∧
      ∀ stop, ended.1.result = .error stop ↔
        (given.2.emitted given.1.2 (commit storage)).1.1 = .error stop := by
  have hat := Progress.at_start checkpoint.keys
  rw [← List.append_nil checkpoint.keys] at hat
  obtain ⟨_, run, -, hemitter, hmilestones, hrun⟩ :=
    convertKeys_of_passes { emitter } h hat
  simp only [List.append_nil] at hrun
  -- no key is left, so the run comes to its commit
  have hdone (e : Disk) (progress : Progress (List String)) :
      e.run (Conversion.convertKeys storage naming checkpoint [] progress run) =
        ((.ok (), run), e) := rfl
  rw [run_perform, hstart]
  simp only [hrun, hdone, hemitter]
  generalize (d₁.offered storage emitter calls).2.emitted
    (d₁.offered storage emitter calls).1.2 (commit storage) = committed
  obtain ⟨⟨result, _⟩, e⟩ := committed
  simp only [List.reverse_nil, List.nil_append, Nat.zero_add] at hmilestones
  cases result with
  | error stop => cases stop <;> simp [hmilestones]
  | ok stats => simp [hmilestones]

/-- A run goes as far as the first key that spoils it, and ends with that failure. -/
theorem perform_of_failsFirst (hstart : d.outcome (start storage output) = (.ok emitter, d₁))
    (hkeys : checkpoint.keys = front ++ key :: back)
    (h : d₁.FailsFirst storage emitter naming checkpoint front key before last stop) :
    d.run (Conversion.perform storage output naming checkpoint) =
      (⟨.error stop, (List.range' 1 front.length).map fun i => (i, checkpoint.keys.length)⟩,
        (d₁.offered storage emitter (before ++ last)).2.discarding storage output stop) := by
  have hat := Progress.at_start checkpoint.keys
  rw [hkeys] at hat
  obtain ⟨progress, run, -, hemitter, hmilestones, hrun⟩ :=
    convertKeys_of_passes { emitter } h.passed hat
  have hspoiled := h.spoiled
  rw [← hemitter] at hspoiled
  -- the keys in front pass, so the run comes to the one that spoils it
  obtain ⟨run', hsame, hended⟩ := convertKeys_of_spoils back progress hspoiled
  rw [← hsame] at hmilestones
  simp only [List.reverse_nil, List.nil_append, Nat.zero_add] at hmilestones
  simp only [hended, hemitter] at hrun
  rw [run_perform, hstart, hkeys, offered_append]
  cases stop <;> simp only [hrun, hmilestones, discarding]

/-- A first failure in one checkpoint is one in every checkpoint that is the same up to there. -/
theorem FailsFirst.congr
    (h : d.FailsFirst storage emitter naming checkpoint front key before last stop)
    (hget : ∀ k ∈ front ++ [key], other.get k = checkpoint.get k) :
    d.FailsFirst storage emitter naming other front key before last stop := by
  obtain ⟨hfront, hkey⟩ := List.forall_mem_append.1 hget
  rw [List.forall_mem_singleton] at hkey
  refine ⟨⟨?_, h.passed.staged⟩, ?_⟩
  · rw [Checkpoint.outputsOf_congr hfront]
    exact h.passed.outputs
  · cases h.spoiled with
    | unread hget => exact .unread (hkey.trans hget)
    | unresolved hget hresolve => exact .unresolved (hkey.trans hget) hresolve
    | unstaged hget hresolve hstaged hemit =>
      exact .unstaged (hkey.trans hget) hresolve hstaged hemit

/-- **The first failure ends a conversion, and what comes after it plays no part.** Once it has
begun, either all keys pass, or there is a first one that spoils it. If all pass, all positions are
noted, and the conversion fails as the commit does. If one is the first to spoil it, its failure is
the result, the positions of the keys in front of it are noted and no other, nothing but the outputs
up to the one that failed is given to the emitter, and all is the same for every checkpoint with as
many keys that is the same up to there. -/
theorem convert_first_failure {converter : Converter (StateM Disk)}
    (hstart : d.outcome (start converter.storage converter.config.output) = (.ok emitter, d₁))
    (checkpoint : Checkpoint) :
    let storage := converter.storage
    let naming := converter.config.naming
    let keys := checkpoint.keys
    let ended := d.run (converter.convert checkpoint)
    ((∃ calls, d₁.Passes storage emitter naming checkpoint keys calls) ∨
      ∃ front key back before last stop, keys = front ++ key :: back ∧
        d₁.FailsFirst storage emitter naming checkpoint front key before last stop) ∧
    (∀ calls, d₁.Passes storage emitter naming checkpoint keys calls →
      let given := d₁.offered storage emitter calls
      ended.1.milestones = (List.range' 1 keys.length).map (fun i => (i, keys.length)) ∧
        ∀ stop, ended.1.result = .error stop ↔
          (given.2.emitted given.1.2 (commit storage)).1.1 = .error stop) ∧
    ∀ front key back before last stop, keys = front ++ key :: back →
      d₁.FailsFirst storage emitter naming checkpoint front key before last stop →
      ended.1.result = .error stop ∧
        ended.1.milestones = (List.range' 1 front.length).map (fun i => (i, keys.length)) ∧
        ended.2 = (d₁.offered storage emitter (before ++ last)).2.discarding storage
          converter.config.output stop ∧
        ∀ other : Checkpoint, other.keys.length = keys.length → front ++ [key] <+: other.keys →
          (∀ k ∈ front ++ [key], other.get k = checkpoint.get k) →
          d.run (converter.convert other) = ended := by
  refine ⟨passes_or_failsFirst .., fun calls hpasses => perform_of_passes hstart hpasses, ?_⟩
  intro front key back before last stop hkeys hfirst
  have hended := perform_of_failsFirst hstart hkeys hfirst
  simp only [Converter.convert, hended, true_and]
  rintro other hlength ⟨rest, hother⟩ hget
  have hkeys' : other.keys = front ++ key :: rest := by rw [← hother]; simp
  rw [perform_of_failsFirst hstart hkeys' (hfirst.congr hget), hlength]

/-! ### The second part of a tensor -/

/-- Tensors of which the second is cut in two, the second part under the name of the first tensor.
Whatever the third is, it is not come to. -/
def overlapping (third : Except Stop RawTensor) : Checkpoint :=
  .ofList [("embeddings.chunk2", .ok ⟨"embeddings.chunk2", [1], [1]⟩),
    ("wte.weight", .ok ⟨"wte.weight", [2, 1], [2, 3]⟩), ("z", third)]

theorem convert_first_failure_overlapping :
    ∃ d₁ before last,
      blank.outcome (start plain.storage plain.config.output) = (.ok { output := {} }, d₁) ∧
      d₁.FailsFirst plain.storage { output := {} } plain.config.naming
        (overlapping (.error .overflow)) ["embeddings.chunk2"] "wte.weight" before last
        (.failed (.collision "embeddings.chunk2")) ∧
      let ended := blank.run (plain.convert (overlapping (.error .overflow)))
      ended.1.result = .error (.failed (.collision "embeddings.chunk2")) ∧
        ended.1.milestones = [(1, 3)] ∧
        ∀ third, blank.run (plain.convert (overlapping third)) = ended := by
  have hstaged : (blank.outcome (start plain.storage plain.config.output)).2.AllStaged
      plain.storage { output := {} } ([⟨"embeddings.chunk2", ⟨1, 1, 1⟩, [1]⟩] ++
        [⟨"embeddings.chunk1", ⟨1, 1, 1⟩, [2]⟩]) := by
    decide +kernel
  obtain ⟨hbefore, hlast⟩ := allStaged_append.1 hstaged
  have hget : (overlapping (.error .overflow)).get "wte.weight" =
      .ok ⟨"wte.weight", [2, 1], [2, 3]⟩ := by
    decide +kernel
  have hresolve : plain.config.naming.resolve ⟨"wte.weight", [2, 1], [2, 3]⟩ =
      .ok ([⟨"embeddings.chunk1", ⟨1, 1, 1⟩, [2]⟩] ++
        [⟨"embeddings.chunk2", ⟨1, 1, 1⟩, [3]⟩]) := by
    decide +kernel
  have hfirst : (blank.outcome (start plain.storage plain.config.output)).2.FailsFirst
      plain.storage { output := {} } plain.config.naming (overlapping (.error .overflow))
      ["embeddings.chunk2"] "wte.weight" [⟨"embeddings.chunk2", ⟨1, 1, 1⟩, [1]⟩]
      ([⟨"embeddings.chunk1", ⟨1, 1, 1⟩, [2]⟩] ++ [⟨"embeddings.chunk2", ⟨1, 1, 1⟩, [3]⟩])
      (.failed (.collision "embeddings.chunk2")) :=
    ⟨⟨by decide +kernel, hbefore⟩, .unstaged hget hresolve hlast (by decide +kernel)⟩
  obtain ⟨d₁, hstart⟩ : ∃ d₁, blank.outcome (start plain.storage plain.config.output) =
      (.ok { output := {} }, d₁) :=
    exists_start_eq (outputPath_ne_empty _) (by decide +kernel)
  rw [hstart] at hfirst
  obtain ⟨hresult, hmilestones, -, hother⟩ := (convert_first_failure hstart
    (overlapping (.error .overflow))).2.2 _ _ ["z"] _ _ _ rfl hfirst
  refine ⟨d₁, _, _, hstart, hfirst, hresult, hmilestones.trans (by decide), fun third => ?_⟩
  refine hother (overlapping third) rfl ⟨["z"], rfl⟩ fun k hk => ?_
  have hk' : k ∈ ["embeddings.chunk2", "wte.weight"] := hk
  simp only [List.mem_cons, List.not_mem_nil, or_false] at hk'
  rcases hk' with rfl | rfl <;> rfl

end Disk

end FlatWeights
