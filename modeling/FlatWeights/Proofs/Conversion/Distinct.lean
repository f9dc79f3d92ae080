import FlatWeights.Proofs.Checkpoint.Reading
import FlatWeights.Proofs.Conversion.Lossless
import FlatWeights.Proofs.Conversion.Stops
import FlatWeights.Proofs.Naming.Distinct

/-!
Runs without collisions. Where no output name is configured away from the built-in table, ordinary
keys never meet in a name (`Naming.names_disjoint`). A run over a checkpoint with such keys only
gives each name to its emitter once, so that no output is turned away for its name, whatever the
disk does and however many blocks there are.

A collection of tensors has to keep its own contract for that: each key once, and under each key a
tensor of that name. Checkpoint files do.
-/

set_option autoImplicit false

namespace FlatWeights

open Emitter

/-- The names of the outputs of a tensor are those of its layout. -/
theorem Naming.names_of_resolve {naming : Naming} {raw : RawTensor} {outputs : List OutputTensor}
    (h : naming.resolve raw = .ok outputs) :
    outputs.map (·.name) = (naming.layout raw.name).names := by
  obtain ⟨dims, -, houtputs⟩ := outputs_of_resolve h
  exact houtputs.names_eq

namespace CanonicalTensor

variable {t : CanonicalTensor} {name : String} {parts : Nat} {stop : Stop}

/-- A tensor that is not cut along its last axis has a shape that does not fit, or a number is too
large. -/
theorem stop_of_splitLast (h : t.splitLast name parts = .error stop) :
    stop = .overflow ∨ ∃ fault, stop = .failed (.shape name fault) := by
  unfold splitLast at h
  split at h
  · exact .inr ⟨_, (Except.error.inj h).symm⟩
  · simp only at h
    split at h
    · split at h
      · exact .inl (Except.error.inj h).symm
      · exact absurd h (by simp)
    · exact .inl (Except.error.inj h).symm

/-- A tensor that is not cut along its middle axis has too large a number. -/
theorem stop_of_splitMiddle (h : t.splitMiddle = .error stop) : stop = .overflow := by
  unfold splitMiddle at h
  simp only at h
  split at h
  · split at h
    · exact (Except.error.inj h).symm
    · exact absurd h (by simp)
  · exact (Except.error.inj h).symm

end CanonicalTensor

/-- A tensor that is not resolved has a shape that does not fit, or a number is too large. -/
theorem Naming.stop_of_resolve {naming : Naming} {raw : RawTensor} {stop : Stop}
    (h : naming.resolve raw = .error stop) :
    stop = .overflow ∨ ∃ fault, stop = .failed (.shape raw.name fault) := by
  rw [resolve, CanonicalTensor.ofRaw, CanonicalTensor.dimsOf] at h
  cases hdims : raw.shape.canonical with
  | error first =>
    rw [hdims] at h
    exact .inr ⟨_, (Except.error.inj h).symm⟩
  | ok dims =>
  rw [hdims] at h
  simp only [bind, Except.bind, pure, Except.pure] at h
  -- once the shape is known, nothing but a cut can go wrong
  cases hlayout : naming.layout raw.name with
  | dropped =>
    rw [hlayout] at h
    exact absurd h (by simp)
  | whole name =>
    rw [hlayout] at h
    exact absurd h (by simp)
  | fusedAttention block ending =>
    rw [hlayout] at h
    simp only at h
    split at h
    · rename_i stop' hsplit
      obtain rfl := Except.error.inj h
      exact CanonicalTensor.stop_of_splitLast hsplit
    · exact absurd h (by simp)
  | chunkedEmbedding stem =>
    rw [hlayout] at h
    simp only at h
    split at h
    · rename_i stop' hsplit
      obtain rfl := Except.error.inj h
      exact .inl (CanonicalTensor.stop_of_splitMiddle hsplit)
    · exact absurd h (by simp)

/-- A collection of tensors has each key once and gives under a key the tensor of that name; what
stops it from giving one is no collision of names. -/
structure Checkpoint.Lawful (c : Checkpoint) : Prop where
  nodup : c.keys.Nodup
  named : ∀ key raw, c.get key = .ok raw → raw.name = key
  reads : ∀ key name, c.get key ≠ .error (.failed (.collision name))

/-- The tensors of an opened file are such a collection. -/
theorem CheckpointFile.lawful_of_opened {path : Path} {content : Bytes} {file : CheckpointFile}
    (h : ofContent path content = .ok file) : file.checkpoint.Lawful := by
  -- whatever a key gives, a tensor or a failure, bears its name
  have hget (key : String) (result : Except Stop RawTensor) (hresult : file.get key = result) :
      (∃ shape data, result = .ok ⟨key, shape, data⟩) ∨
        ∃ fault, result = .error (.failed (.tensorRead key fault)) := by
    subst hresult
    cases hinfo : file.header.tensors.find? key with
    | none =>
      rw [get, hinfo]
      exact .inr ⟨_, rfl⟩
    | some info =>
      rw [get_of_opened h hinfo, reading]
      split
      · exact .inl ⟨_, _, rfl⟩
      · exact .inr ⟨_, rfl⟩
  refine ⟨?_, fun key raw hraw => ?_, fun key name hname => ?_⟩
  · refine file.header.tensors.keys_pairwise.imp fun {a b} (hlt : a < b) heq => ?_
    subst heq
    exact String.lt_irrefl a hlt
  · rcases hget key _ hraw with ⟨shape, data, hok⟩ | ⟨fault, herror⟩
    · rw [Except.ok.inj hok]
    · exact absurd herror (by simp)
  · rcases hget key _ hname with ⟨shape, data, hok⟩ | ⟨fault, herror⟩
    · exact absurd hok (by simp)
    · exact absurd herror (by simp)

namespace Checkpoint

variable {c : Checkpoint} {naming : Naming} {keys : List String} {name : String}

/-- The names of the outputs of a key are those of its layout. -/
theorem Lawful.names (h : c.Lawful) {key : String} {outputs : List OutputTensor}
    (houtputs : (c.get key >>= naming.resolve) = .ok outputs) :
    outputs.map (·.name) = (naming.layout key).names := by
  cases hraw : c.get key with
  | error stop =>
    rw [hraw] at houtputs
    exact absurd houtputs (by simp [bind, Except.bind])
  | ok raw =>
    rw [hraw] at houtputs
    rw [Naming.names_of_resolve houtputs, h.named key raw hraw]

/-- A name of an output is one of a key. -/
theorem Lawful.exists_key (h : c.Lawful) (hname : name ∈ (c.resolvedOf naming keys).map (·.name)) :
    ∃ key ∈ keys, name ∈ (naming.layout key).names := by
  induction keys with
  | nil => exact absurd hname (by simp [resolvedOf])
  | cons key keys ih =>
    rw [resolvedOf] at hname
    cases hkey : c.get key >>= naming.resolve with
    | error stop =>
      rw [hkey] at hname
      exact absurd hname (by simp)
    | ok outputs =>
      rw [hkey] at hname
      simp only [List.map_append, h.names hkey] at hname
      rcases List.mem_append.1 hname with hname | hname
      · exact ⟨key, List.mem_cons_self, hname⟩
      · obtain ⟨key', hkey', hmem⟩ := ih hname
        exact ⟨key', List.mem_cons_of_mem key hkey', hmem⟩

/-- No two outputs have one name, where the names of any two keys are different. -/
theorem Lawful.nodup_resolvedOf (h : c.Lawful) (hnodup : keys.Nodup)
    (hdisjoint : ∀ key ∈ keys, ∀ key' ∈ keys, key ≠ key' →
      ∀ x ∈ (naming.layout key).names, x ∉ (naming.layout key').names) :
    ((c.resolvedOf naming keys).map (·.name)).Nodup := by
  induction keys with
  | nil => simp [resolvedOf]
  | cons key keys ih =>
    obtain ⟨hfresh, hnodup⟩ := List.nodup_cons.1 hnodup
    have hlater := ih hnodup fun key₁ h₁ key₂ h₂ =>
      hdisjoint key₁ (List.mem_cons_of_mem key h₁) key₂ (List.mem_cons_of_mem key h₂)
    rw [resolvedOf]
    cases hkey : c.get key >>= naming.resolve with
    | error stop => simp
    | ok outputs =>
    simp only [List.map_append, h.names hkey]
    -- the names of these outputs and of later ones are names of different keys
    refine List.nodup_append.2 ⟨Layout.nodup_names _, hlater, fun x hx y hy heq => ?_⟩
    obtain ⟨key', hkey', hmem⟩ := h.exists_key hy
    have hne : key ≠ key' := by
      rintro rfl
      exact hfresh hkey'
    exact hdisjoint key List.mem_cons_self key' (List.mem_cons_of_mem key hkey') hne x hx
      (heq ▸ hmem)

end Checkpoint

namespace Disk

variable {d : Disk} {base : Path} {buffer : Nat} {output : OutputSettings} {naming : Naming}
  {checkpoint : Checkpoint}

/-- A run in which no name is given twice never fails for a name. -/
theorem perform_ne_collision (hlawful : checkpoint.Lawful)
    (hnodup : ((checkpoint.resolved naming).map (·.name)).Nodup) (name : String) :
    (d.run (Conversion.perform (Storage.below base buffer) output naming checkpoint)).1.result ≠
      .error (.failed (.collision name)) := by
  intro hcollision
  rcases stop_of_perform hcollision with ⟨key, -, hstop⟩ |
    ⟨done, t, rest, next, hsplit, haccepted, hrefuses⟩ | hwrite
  · cases hraw : checkpoint.get key with
    | error stop =>
      rw [hraw] at hstop
      obtain rfl := Except.error.inj hstop
      exact hlawful.reads key name hraw
    | ok raw =>
      rw [hraw] at hstop
      rcases Naming.stop_of_resolve hstop with hover | ⟨fault, hshape⟩
      · exact absurd hover (by simp)
      · exact absurd hshape (by simp)
  · cases hrefuses with
    | objects hobjection =>
      -- the name was given to the emitter before, and by another output
      obtain ⟨⟨-, hmay⟩, rfl⟩ := objection?_eq_collision_iff.1 hobjection
      have hwritten := (not_mayWrite_iff.1 hmay).1
      obtain ⟨t', ht', hname⟩ : ∃ t' ∈ done, t'.name = t.name :=
        (mem_written_iff haccepted t.name).1 (NameSet.contains_iff.1 hwritten)
      rw [hsplit, List.map_append, List.nodup_append] at hnodup
      exact hnodup.2.2 t'.name (List.mem_map.2 ⟨t', ht', rfl⟩) t.name (by simp) hname
  · -- a storage knows of no names
    cases hwrite

/-- **Ordinary keys never collide.** Without a configured naming, the outputs of two tensors with
different ordinary keys have no name in common; and whatever the settings of the output and the disk
are, the conversion of a checkpoint with ordinary keys only never fails for a name. -/
theorem ordinary_never_collide :
    (∀ (raw raw' : RawTensor) (outputs outputs' : List OutputTensor),
      Naming.Ordinary raw.name → Naming.Ordinary raw'.name → raw.name ≠ raw'.name →
      Naming.resolve {} raw = .ok outputs → Naming.resolve {} raw' = .ok outputs' →
      ∀ t ∈ outputs, ∀ t' ∈ outputs', t.name ≠ t'.name) ∧
    (∀ (path : Path) (content : Bytes) (file : CheckpointFile),
      CheckpointFile.ofContent path content = .ok file → file.checkpoint.Lawful) ∧
    ∀ (config : Config) (converter : Converter (StateM Disk)) (d₀ e₀ d : Disk)
      (checkpoint : Checkpoint) (name : String),
      d₀.outcome (Converter.ofConfig config) = (.ok converter, e₀) → config.naming = {} →
      checkpoint.Lawful → (∀ key ∈ checkpoint.keys, Naming.Ordinary key) →
      (d.run (converter.convert checkpoint)).1.result ≠ .error (.failed (.collision name)) := by
  refine ⟨?_, fun _ _ _ => CheckpointFile.lawful_of_opened, ?_⟩
  · intro raw raw' outputs outputs' h h' hne houtputs houtputs' t ht t' ht' heq
    have hname : t.name ∈ (({} : Naming).layout raw.name).names := by
      rw [← Naming.names_of_resolve houtputs]
      exact List.mem_map.2 ⟨t, ht, rfl⟩
    have hname' : t'.name ∈ (({} : Naming).layout raw'.name).names := by
      rw [← Naming.names_of_resolve houtputs']
      exact List.mem_map.2 ⟨t', ht', rfl⟩
    exact Naming.names_disjoint h h' hne t.name hname (heq ▸ hname')
  · intro config converter d₀ e₀ d checkpoint name hmake hnaming hlawful hordinary
    obtain ⟨-, rfl⟩ := converter_of_config hmake
    simp only [convert_converterOf, hnaming]
    refine perform_ne_collision hlawful (hlawful.nodup_resolvedOf hlawful.nodup ?_) name
    intro key hkey key' hkey' hne
    exact Naming.names_disjoint (hordinary key hkey) (hordinary key' hkey') hne

/-! ### Blocks whose names begin alike -/

/-- Three tensors of one element: one of the first block, one of the eleventh, and one of none. -/
def alike : Checkpoint :=
  .ofList (["h.1.1.bias", "h.11.bias", "ln_f.bias"].map fun key => (key, .ok ⟨key, [1], [1]⟩))

theorem lawful_alike : alike.Lawful := by
  have hget (key : String) : alike.get key = .ok ⟨key, [1], [1]⟩ ∨
      alike.get key = .error (.failed (.tensorRead key .unknownKey)) := by
    simp only [alike, Checkpoint.ofList, List.map_cons, List.map_nil, List.lookup_cons,
      List.lookup_nil]
    repeat' split
    all_goals simp_all
  refine ⟨by decide +kernel, fun key raw hraw => ?_, fun key name hname => ?_⟩
  · rcases hget key with hok | herror
    · rw [hok] at hraw
      rw [← Except.ok.inj hraw]
    · rw [herror] at hraw
      exact absurd hraw (by simp)
  · rcases hget key with hok | herror
    · rw [hok] at hname
      exact absurd hname (by simp)
    · rw [herror] at hname
      exact absurd hname (by simp)

theorem ordinary_alike : ∀ key ∈ alike.keys, Naming.Ordinary key := by
  have hfirst : Naming.Ordinary (LayerKey.blockName "h" 1 "1.bias") :=
    .block (by decide) (by decide) (by decide) (by decide)
  have hsecond : Naming.Ordinary (LayerKey.blockName "h" 11 "bias") :=
    .block (by decide) (by decide) (by decide) (by decide)
  have hthird : Naming.Ordinary "ln_f.bias" :=
    .global (by decide +kernel) (by decide) (by decide)
  have hkeys : alike.keys = [LayerKey.blockName "h" 1 "1.bias", LayerKey.blockName "h" 11 "bias",
      "ln_f.bias"] := by
    decide +kernel
  rw [hkeys]
  simp [hfirst, hsecond, hthird]

/-- Keys that look alike, `h.1.1.bias` and `h.11.bias` among them, go to names apart. -/
theorem ordinary_never_collide_alike :
    alike.Lawful ∧ (∀ key ∈ alike.keys, Naming.Ordinary key) ∧
      blank.outcome (Converter.ofConfig direct.config) = (.ok direct, blank) ∧
      direct.config.naming = {} ∧
      (blank.run (direct.convert alike)).1.result = .ok ⟨3, 0, 3, 48, 0⟩ ∧
      (∀ name, (blank.run (direct.convert alike)).1.result ≠
        .error (.failed (.collision name))) ∧
      ∀ outputs outputs', Naming.resolve {} ⟨"h.1.1.bias", [1], [1]⟩ = .ok outputs →
        Naming.resolve {} ⟨"h.11.bias", [1], [1]⟩ = .ok outputs' →
        ∀ t ∈ outputs, ∀ t' ∈ outputs', t.name ≠ t'.name := by
  have hmake : blank.outcome (Converter.ofConfig direct.config) = (.ok direct, blank) :=
    outcome_ofConfig (by decide +kernel) (by decide +kernel)
  obtain ⟨hresolve, -, hconvert⟩ := ordinary_never_collide
  refine ⟨lawful_alike, ordinary_alike, hmake, rfl, by decide +kernel, fun name => ?_, ?_⟩
  · exact hconvert direct.config direct blank blank blank alike name hmake rfl lawful_alike
      ordinary_alike
  · intro outputs outputs'
    exact hresolve ⟨"h.1.1.bias", [1], [1]⟩ ⟨"h.11.bias", [1], [1]⟩ outputs outputs'
      (ordinary_alike "h.1.1.bias" (by decide +kernel))
      (ordinary_alike "h.11.bias" (by decide +kernel)) (by decide)

end Disk

end FlatWeights
