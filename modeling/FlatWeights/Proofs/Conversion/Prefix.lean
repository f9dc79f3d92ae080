import FlatWeights.Proofs.Conversion.Lossless
import FlatWeights.Proofs.Conversion.Stops
import FlatWeights.Proofs.Text.ByteOrder

/-!
Keys with a common beginning that is taken away. Two collections hold the same tensors, one of them
under longer keys; a run over the longer ones takes the beginning away before it reads a key, and a
run over the shorter ones takes nothing away. The two runs go in lockstep (`run_convertKeys_under`):
after every key they have the same emitter, the same counts and the same disk, and if one stops, so
does the other. They stop for the same reason, except that a failure which names the stored tensor
names the longer one (`Stop.under`).

Two things are needed for that. What is taken away is taken away once and before anything else is
read, so that a key may begin as often as it likes with the same text, or with that of blocks. And
the keys come in the same order, although each collection orders its own: a common beginning changes
no comparison.
-/

set_option autoImplicit false

namespace FlatWeights

open Emitter

/-! ## Longer names -/

/-- A failure where the names of stored tensors begin with some text more. -/
def Failure.under (front : String) : Failure → Failure
  | .tensorRead name fault => .tensorRead (front ++ name) fault
  | .shape name fault => .shape (front ++ name) fault
  | failure => failure

theorem Failure.kind_under (front : String) (failure : Failure) :
    (failure.under front).kind = failure.kind := by
  cases failure <;> rfl

/-- The same for a reason to stop. -/
def Stop.under (front : String) : Stop → Stop
  | .failed failure => .failed (failure.under front)
  | .overflow => .overflow

/-- A stored tensor under a longer name. -/
def RawTensor.under (front : String) (raw : RawTensor) : RawTensor :=
  { raw with name := front ++ raw.name }

/-- A tensor that is read under a longer name. -/
def RawTensor.readUnder (front : String) : Except Stop RawTensor → Except Stop RawTensor
  | .ok raw => .ok (raw.under front)
  | .error stop => .error (stop.under front)

/-- The naming that takes a beginning away. -/
def Naming.stripping (naming : Naming) (front : String) : Naming :=
  { naming with strip := some front }

/-- The configuration that takes a beginning away. -/
def Config.stripping (config : Config) (front : String) : Config :=
  { config with naming := config.naming.stripping front }

/-- The second collection holds the tensors of the first one, each under a longer key; both are gone
through in the order of the bytes of the keys. -/
structure Checkpoint.Prefixed (front : String) (c c' : Checkpoint) : Prop where
  ordered : (c.keys.map Text.bytes).Pairwise (· ≤ ·)
  ordered' : (c'.keys.map Text.bytes).Pairwise (· ≤ ·)
  keys : c'.keys.Perm (c.keys.map (front ++ ·))
  get : ∀ key ∈ c.keys, c'.get (front ++ key) = RawTensor.readUnder front (c.get key)

/-! ## The order of the keys -/

namespace Text

/-- A common front does not change the order of two names. -/
theorem append_lt_append_iff {front a b : String} : front ++ a < front ++ b ↔ a < b := by
  rw [String.lt_iff, String.lt_iff, String.toList_append, String.toList_append]
  induction front.toList with
  | nil => rfl
  | cons c front ih =>
    rw [List.cons_append, List.cons_append, List.cons_lt_cons_iff, ih]
    simp

theorem bytes_le_iff {a b : String} : bytes a ≤ bytes b ↔ ¬ b < a := by
  rw [← bytes_lt_iff, List.not_lt]

end Text

/-- The longer keys come in the order of the shorter ones. -/
theorem Checkpoint.Prefixed.keys_eq {front : String} {c c' : Checkpoint} (h : c.Prefixed front c') :
    c'.keys = c.keys.map (front ++ ·) := by
  refine List.Perm.eq_of_pairwise (fun a b _ _ hab hba => ?_) (List.pairwise_map.1 h.ordered') ?_
    h.keys
  · rw [Text.bytes_le_iff, String.not_lt] at hab hba
    exact String.le_antisymm hab hba
  · refine List.pairwise_map.2 ((List.pairwise_map.1 h.ordered).imp fun {a b} hab => ?_)
    rw [Text.bytes_le_iff] at hab ⊢
    rwa [Text.append_lt_append_iff]

/-! ## One tensor -/

/-- Renaming the error of a step that follows another renames both. -/
theorem mapError_bind {α β : Type} (f : Stop → Stop) (x : Except Stop α)
    (g : α → Except Stop β) :
    (x >>= g).mapError f = x.mapError f >>= fun a => (g a).mapError f := by
  cases x with
  | error stop => rfl
  | ok a => rfl

namespace CanonicalTensor

variable {front : String}

/-- A shape is taken to three dimensions under any front. -/
theorem ofRaw_under (raw : RawTensor) :
    ofRaw (raw.under front) = (ofRaw raw).mapError (Stop.under front) := by
  rw [ofRaw, ofRaw, dimsOf, dimsOf]
  show _ = Except.mapError _ (Except.bind _ _)
  unfold RawTensor.under
  cases raw.shape.canonical with
  | error first => rfl
  | ok dims => rfl

/-- So is a tensor cut along its last axis. -/
theorem splitLast_under (t : CanonicalTensor) (name : String) (parts : Nat) :
    t.splitLast (front ++ name) parts = (t.splitLast name parts).mapError (Stop.under front) := by
  unfold splitLast
  split
  · rfl
  · simp only
    split
    · split <;> rfl
    · rfl

/-- Cutting along the middle axis names no tensor. -/
theorem splitMiddle_under (t : CanonicalTensor) :
    t.splitMiddle.mapError (Stop.under front) = t.splitMiddle := by
  unfold splitMiddle
  simp only
  split
  · split <;> rfl
  · rfl

end CanonicalTensor

namespace Naming

variable {naming : Naming} {front : String}

/-- What is stripped off is the front that was put on. -/
theorem stripped_stripping (name : String) :
    (naming.stripping front).stripped (front ++ name) = name := by
  rw [stripped, stripping]
  simp only [String.toList_append, Text.after?_append, String.ofList_toList]

/-- A longer key is read as the shorter one, whatever the shorter one begins with. -/
theorem layout_stripping (h : naming.strip = none) (name : String) :
    (naming.stripping front).layout (front ++ name) = naming.layout name := by
  have hkept : naming.stripped name = name := by rw [stripped, h]
  rw [layout, layout, layerKey, layerKey, stripped_stripping, hkept]
  rfl

/-- A tensor under a longer name gives the same outputs, or fails for the same reason. -/
theorem resolve_stripping (h : naming.strip = none) (raw : RawTensor) :
    (naming.stripping front).resolve (raw.under front) =
      (naming.resolve raw).mapError (Stop.under front) := by
  have hlayout : (naming.stripping front).layout (raw.under front).name = naming.layout raw.name :=
    layout_stripping h raw.name
  rw [resolve, resolve, hlayout, CanonicalTensor.ofRaw_under, mapError_bind]
  apply congrArg
  funext tensor
  -- the stored name is in the failures of a cut and in nothing else
  cases naming.layout raw.name with
  | dropped => rfl
  | whole name => rfl
  | fusedAttention block ending =>
    simp only [mapError_bind]
    rw [← CanonicalTensor.splitLast_under]
    rfl
  | chunkedEmbedding stem =>
    simp only [mapError_bind]
    rw [CanonicalTensor.splitMiddle_under]
    rfl

/-- Read under a longer name and resolved, a tensor gives the same outputs, or fails for the same
reason. -/
theorem resolve_readUnder (h : naming.strip = none) (read : Except Stop RawTensor) :
    (RawTensor.readUnder front read >>= (naming.stripping front).resolve) =
      (read >>= naming.resolve).mapError (Stop.under front) := by
  cases read with
  | error stop => rfl
  | ok raw => exact resolve_stripping h raw

end Naming

/-! ## Stops that name no stored tensor -/

section Fixed

variable {front : String} {stop : Stop}

theorem Stop.OfWrite.under {buffer : Nat} (h : stop.OfWrite buffer) :
    stop.under front = stop := by
  cases h <;> rfl

/-- What an emitter turns an output away for is said of the output. -/
theorem Emitter.Refuses.under {emitter : Emitter} {t : OutputTensor} (h : emitter.Refuses t stop) :
    stop.under front = stop := by
  cases h with
  | uncounted _ _ => rfl
  | objects hobjection =>
    unfold objection? at hobjection
    split at hobjection
    · split at hobjection
      · rw [← Option.some.inj hobjection]
        rfl
      · split at hobjection
        · exact absurd hobjection (by simp)
        · rw [← Option.some.inj hobjection]
          rfl
    · rw [← Option.some.inj hobjection]
      rfl

end Fixed

/-! ## All tensors -/

/-- What became of a run, where the names of stored tensors begin with some text more. -/
def ConversionOutcome.under (front : String) (outcome : ConversionOutcome) : ConversionOutcome :=
  { outcome with result := outcome.result.mapError (Stop.under front) }

/-- A way through keys that begin with some text more. -/
def Progress.under (front : String) (progress : Progress (List String)) : Progress (List String) :=
  { progress with inner := progress.inner.map (front ++ ·) }

/-- It is as long as the way through the shorter keys. -/
theorem Progress.next_under (front : String) (progress : Progress (List String)) :
    ((progress.under front).next Source.exact).2 = (progress.next Source.exact).2.under front := by
  obtain ⟨inner, position, total⟩ := progress
  cases inner with
  | nil => rfl
  | cons key keys => rfl

theorem Progress.start_under (front : String) (keys : List String) :
    Progress.start Source.exact (keys.map (front ++ ·)) =
      (Progress.start Source.exact keys).under front := by
  simp [Progress.start, Progress.under, Source.exact]

namespace Disk

variable (d : Disk) (base : Path) (buffer : Nat) (output : OutputSettings) {naming : Naming}
  {front : String} {c c' : Checkpoint} {keys : List String} {key : String}

/-- The way of a run, where the names of stored tensors begin with some text more. -/
def ranUnder (front : String) (ran : (Except Stop Unit × Conversion) × Disk) :
    (Except Stop Unit × Conversion) × Disk :=
  ((ran.1.1.mapError (Stop.under front), ran.1.2), ran.2)

/-- **One key keeps the two runs together.** -/
theorem run_convertKey_under (hstrip : naming.strip = none)
    (hget : c'.get (front ++ key) = RawTensor.readUnder front (c.get key)) (milestone : Nat × Nat)
    (run : Conversion) :
    d.run (Conversion.convertKey (Storage.below base buffer) (naming.stripping front) c'
      (front ++ key)
        milestone run) =
      ranUnder front
        (d.run (Conversion.convertKey (Storage.below base buffer) naming c key milestone run)) := by
  -- up to the outputs the names may differ; from there on the two runs give the same to the emitter
  rw [run_convertKey, run_convertKey, hget, Naming.resolve_readUnder hstrip]
  cases c.get key >>= naming.resolve with
  | error stop => rfl
  | ok outputs =>
    simp only [Except.mapError]
    cases hall : d.emitted run.emitter (Conversion.emitAll (Storage.below base buffer) outputs) with
    | mk answer e =>
    obtain ⟨emitted, emitter⟩ := answer
    cases emitted with
    | ok _ => rfl
    | error stop =>
      have hfixed : stop.under front = stop := by
        rcases stop_of_emitAll hall with ⟨done, t, rest, next, -, -, hrefuses⟩ | hwrite
        · exact hrefuses.under
        · exact hwrite.under
      simp only [ranUnder, Except.mapError, hfixed]

/-- **The two runs stay together over all keys.** -/
theorem run_convertKeys_under (hstrip : naming.strip = none)
    (hget : ∀ key ∈ keys, c'.get (front ++ key) = RawTensor.readUnder front (c.get key))
    (progress : Progress (List String)) (run : Conversion) :
    d.run (Conversion.convertKeys (Storage.below base buffer) (naming.stripping front) c'
        (keys.map (front ++ ·)) (progress.under front) run) =
      ranUnder front
        (d.run (Conversion.convertKeys (Storage.below base buffer) naming c keys progress
          run)) := by
  -- both runs take one key each, which leaves them with the same emitter and disk
  induction keys generalizing d run progress with
  | nil => rfl
  | cons key keys ih =>
    rw [List.map_cons, run_convertKeys_cons, run_convertKeys_cons, Progress.next_under]
    have hfirst := run_convertKey_under d base buffer hstrip (hget key List.mem_cons_self)
      ((progress.next Source.exact).2.position, (progress.next Source.exact).2.total) run
    simp only [Progress.under] at hfirst ⊢
    rw [hfirst]
    cases d.run (Conversion.convertKey (Storage.below base buffer) naming c key
        ((progress.next Source.exact).2.position, (progress.next Source.exact).2.total) run) with
    | mk ran e =>
    obtain ⟨result, second⟩ := ran
    cases result with
    | error stop => rfl
    | ok _ =>
      exact ih e (fun key' hkey' => hget key' (List.mem_cons_of_mem key hkey')) _ second

/-- **The two runs end together**, with the same disk, at the same position and for the same
reason. -/
theorem perform_under (hstrip : naming.strip = none) (hprefixed : c.Prefixed front c') :
    d.run (Conversion.perform (Storage.below base buffer) output (naming.stripping front) c') =
      ((d.run (Conversion.perform (Storage.below base buffer) output naming c)).1.under front,
        (d.run (Conversion.perform (Storage.below base buffer) output naming c)).2) := by
  -- the start and the commit see no stored tensor, so what stops them is the same failed write
  have hbegin := onlyWrites_start base buffer output d
  rw [run_perform, run_perform]
  cases hstart : d.outcome (start (Storage.below base buffer) output) with
  | mk started d₁ =>
  rw [hstart] at hbegin
  cases started with
  | error stop => simp only [ConversionOutcome.under, Except.mapError, (hbegin stop rfl).under]
  | ok emitter =>
  simp only
  rw [hprefixed.keys_eq, Progress.start_under,
    run_convertKeys_under d₁ base buffer hstrip hprefixed.get]
  cases d₁.run (Conversion.convertKeys (Storage.below base buffer) naming c c.keys
      (Progress.start Source.exact c.keys) { emitter }) with
  | mk converted d₂ =>
  obtain ⟨result, run⟩ := converted
  cases result with
  | error stop =>
    cases stop with
    | failed failure => rfl
    | overflow => rfl
  | ok _ =>
  simp only [ranUnder, Except.mapError]
  cases hcommit : d₂.emitted run.emitter (commit (Storage.below base buffer)) with
  | mk committed d₃ =>
  obtain ⟨result, last⟩ := committed
  cases result with
  | ok stats => rfl
  | error stop =>
    have hfixed : stop.under front = stop :=
      (onlyWrites_commit base buffer (congrArg (·.1.1) hcommit)).under
    cases stop with
    | failed failure => simp only [ConversionOutcome.under, Except.mapError, hfixed]
    | overflow => rfl

/-- **Taking a beginning away changes nothing.** If the keys of a checkpoint are those of another
one with the same text in front of each, and the tensors are the same, then a run that takes this
text away has the disk, the report and the milestones of a run over the other checkpoint that takes
nothing away. If one fails, both do, with the same failure but for the name of the stored tensor. -/
theorem strip_transparent {config : Config} {converter : Converter (StateM Disk)} {d₀ e₀ : Disk}
    {front : String} {c c' : Checkpoint}
    (hmake : d₀.outcome (Converter.ofConfig config) = (.ok converter, e₀))
    (hstrip : config.naming.strip = none) (hprefixed : c.Prefixed front c') :
    ∃ converter', d₀.outcome (Converter.ofConfig (config.stripping front)) = (.ok converter', e₀) ∧
      ∀ d : Disk, (d.run (converter'.convert c')).2 = (d.run (converter.convert c)).2 ∧
        (d.run (converter'.convert c')).1.milestones = (d.run (converter.convert c)).1.milestones ∧
        match (d.run (converter.convert c)).1.result with
        | .ok report => (d.run (converter'.convert c')).1.result = .ok report
        | .error (.failed failure) =>
          (d.run (converter'.convert c')).1.result = .error (.failed (failure.under front)) ∧
            (failure.under front).kind = failure.kind
        | .error .overflow => (d.run (converter'.convert c')).1.result = .error .overflow := by
  have hvalid : (config.stripping front).validate = config.validate := rfl
  obtain ⟨-, rfl⟩ := converter_of_config hmake
  refine ⟨_, outcome_ofConfig_congr hvalid rfl hmake, fun d => ?_⟩
  have hunder := perform_under d "." config.storage.bufferSize config.output hstrip hprefixed
  simp only [convert_converterOf, Config.stripping]
  rw [hunder]
  generalize d.run (Conversion.perform (Storage.below "." config.storage.bufferSize) config.output
    config.naming c) = ran
  obtain ⟨⟨result, milestones⟩, e⟩ := ran
  refine ⟨rfl, rfl, ?_⟩
  cases result with
  | ok report => rfl
  | error stop =>
    cases stop with
    | failed failure => exact ⟨rfl, failure.kind_under front⟩
    | overflow => rfl

/-! ### A beginning that looks like that of blocks -/

/-- Biases of one element under the given keys. -/
def biases (keys : List String) : Checkpoint :=
  .ofList (keys.map fun key => (key, .ok ⟨key, [1], [1]⟩))

/-- A front that is itself the prefix of the blocks: `h.h.1.bias` without its front is the bias of
block 1. -/
theorem strip_transparent_blocks :
    Checkpoint.Prefixed "h." (biases ["h.1.bias", "ln_f.bias"])
        (biases ["h.h.1.bias", "h.ln_f.bias"]) ∧
      blank.outcome (Converter.ofConfig direct.config) = (.ok direct, blank) ∧
      direct.config.naming.strip = none ∧
      (blank.run (direct.convert (biases ["h.1.bias", "ln_f.bias"]))).1.result =
        .ok ⟨2, 0, 2, 32, 0⟩ ∧
      ∃ converter',
        blank.outcome (Converter.ofConfig (direct.config.stripping "h.")) =
          (.ok converter', blank) ∧
        (blank.run (converter'.convert (biases ["h.h.1.bias", "h.ln_f.bias"]))).1.result =
          .ok ⟨2, 0, 2, 32, 0⟩ := by
  have hmake : blank.outcome (Converter.ofConfig direct.config) = (.ok direct, blank) :=
    outcome_ofConfig (by decide +kernel) (by decide +kernel)
  have hprefixed : Checkpoint.Prefixed "h." (biases ["h.1.bias", "ln_f.bias"])
      (biases ["h.h.1.bias", "h.ln_f.bias"]) :=
    ⟨by decide +kernel, by decide +kernel, by decide +kernel, by decide +kernel⟩
  have hresult : (blank.run (direct.convert (biases ["h.1.bias", "ln_f.bias"]))).1.result =
      .ok ⟨2, 0, 2, 32, 0⟩ := by
    decide +kernel
  obtain ⟨converter', hmake', hruns⟩ := strip_transparent hmake rfl hprefixed
  have hsame := hruns blank
  simp only [hresult] at hsame
  exact ⟨hprefixed, hmake, rfl, hresult, converter', hmake', hsame.2.2⟩

end Disk

end FlatWeights
