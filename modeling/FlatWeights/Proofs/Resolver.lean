import FlatWeights.Proofs.Tensor.Split
import FlatWeights.Resolver

/-!
What the outputs of a tensor say about it. They are the tensor under a new name, or its parts along
an axis, so that the tensor can be put together again from what is found under their names
(`Layout.Reassembles`); a tensor that is left out is the only one that is lost.
-/

set_option autoImplicit false

namespace FlatWeights

/-- A shape and its three-axis form ask for the same number of elements. -/
theorem Shape.prod_eq_of_canonical {s : Shape} {dims : Dims Nat} (h : s.canonical = .ok dims) :
    s.prod = dims.outer * dims.middle * dims.inner := by
  fun_induction Shape.canonical s with
  | case1 | case2 | case3 =>
    obtain rfl := Except.ok.inj h
    simp
  | case4 outer middle inner =>
    obtain rfl := Except.ok.inj h
    simp [Nat.mul_assoc]
  | case5 rest _ _ _ ih => rw [List.prod_cons, Nat.one_mul, ih h]
  | case6 first rest _ _ _ hfirst => exact absurd h (by simp)

/-- The outputs that a layout gives for a tensor. -/
def Layout.Outputs : Layout → CanonicalTensor → List OutputTensor → Prop
  | .dropped, _, outputs => outputs = []
  | .fusedAttention block ending, t, outputs => ∃ width, t.dims.inner = 3 * width ∧
      outputs = [(t.part width 0).named (attentionName block ending "query"),
        (t.part width 1).named (attentionName block ending "key"),
        (t.part width 2).named (attentionName block ending "value")]
  | .chunkedEmbedding stem, t, outputs => ∃ first second, t.splitMiddle = .ok (first, second) ∧
      outputs = [first.named (stem ++ ".chunk1"), second.named (stem ++ ".chunk2")]
  | .whole name, t, outputs => outputs = [t.named name]

/-- A tensor for which there are outputs has a three-axis form, and its layout gives the outputs. -/
theorem Naming.outputs_of_resolve {naming : Naming} {raw : RawTensor} {outputs : List OutputTensor}
    (h : naming.resolve raw = .ok outputs) : ∃ dims, raw.shape.canonical = .ok dims ∧
      (naming.layout raw.name).Outputs ⟨dims, raw.data⟩ outputs := by
  rw [Naming.resolve, CanonicalTensor.ofRaw, CanonicalTensor.dimsOf] at h
  cases hdims : raw.shape.canonical with
  | error first =>
    rw [hdims] at h
    exact absurd h (by simp [bind, Except.bind])
  | ok dims =>
  rw [hdims] at h
  refine ⟨dims, rfl, ?_⟩
  simp only [bind, Except.bind, pure, Except.pure] at h
  cases hlayout : naming.layout raw.name with
  | dropped =>
    rw [hlayout] at h
    exact (Except.ok.inj h).symm
  | whole name =>
    rw [hlayout] at h
    exact (Except.ok.inj h).symm
  | fusedAttention block ending =>
    rw [hlayout] at h
    simp only at h
    split at h
    · exact absurd h (by simp)
    · rename_i parts hparts
      obtain ⟨width, hinner, rfl⟩ := CanonicalTensor.splitLast_eq_ok hparts
      exact ⟨width, hinner, (Except.ok.inj h).symm⟩
  | chunkedEmbedding stem =>
    rw [hlayout] at h
    simp only at h
    split at h
    · exact absurd h (by simp)
    · rename_i pieces hpieces
      obtain ⟨first, second⟩ := pieces
      exact ⟨first, second, hpieces, (Except.ok.inj h).symm⟩

/-- No output has more or fewer elements than its shape asks for, if the tensor has not. -/
theorem Layout.Outputs.full {layout : Layout} {t : CanonicalTensor} {outputs : List OutputTensor}
    (h : layout.Outputs t outputs) (hfull : t.Full) :
    ∀ out ∈ outputs, CanonicalTensor.Full ⟨out.dims, out.data⟩ := by
  cases layout with
  | dropped =>
    obtain rfl : outputs = [] := h
    simp
  | whole name =>
    obtain rfl : outputs = [t.named name] := h
    intro out hout
    obtain rfl := List.mem_singleton.1 hout
    exact hfull
  | fusedAttention block ending =>
    obtain ⟨width, hinner, rfl⟩ := h
    have hpart : ∀ index < 3, (t.part width index).Full := fun index hindex =>
      CanonicalTensor.part_full hfull hindex hinner
    simpa using ⟨hpart 0 (by decide), hpart 1 (by decide), hpart 2 (by decide)⟩
  | chunkedEmbedding stem =>
    obtain ⟨first, second, hsplit, rfl⟩ := h
    obtain ⟨hfirst, hsecond, -⟩ := CanonicalTensor.halves hfull hsplit
    simpa using ⟨hfirst, hsecond⟩

/-- What is filed under the names of a layout makes up a tensor. -/
def Layout.Reassembles (filed : String → Option CanonicalTensor) :
    Layout → CanonicalTensor → Prop
  | .dropped, _ => False
  | .fusedAttention block ending, t => ∃ query key value,
    filed (attentionName block ending "query") = some query ∧
      filed (attentionName block ending "key") = some key ∧
      filed (attentionName block ending "value") = some value ∧
      key.dims = query.dims ∧ value.dims = query.dims ∧
      CanonicalTensor.joinLast query.dims.outer query.dims.middle [query, key, value] = t
  | .chunkedEmbedding stem, t => ∃ first second,
    filed (stem ++ ".chunk1") = some first ∧ filed (stem ++ ".chunk2") = some second ∧
      second.dims.outer = first.dims.outer ∧ second.dims.inner = first.dims.inner ∧
      CanonicalTensor.joinMiddle first second = t
  | .whole name, t => filed name = some t

/-- A tensor that has the elements its shape asks for has them on three axes too. -/
theorem RawTensor.full_of_canonical {raw : RawTensor} {dims : Dims Nat}
    (hdims : raw.shape.canonical = .ok dims) (hcount : raw.data.length = raw.shape.prod) :
    CanonicalTensor.Full ⟨dims, raw.data⟩ := by
  rw [CanonicalTensor.Full, hcount, Shape.prod_eq_of_canonical hdims]

/-- A tensor that is not left out can be put together again from its outputs. -/
theorem Naming.reassembles_of_resolve {naming : Naming} {raw : RawTensor}
    {outputs : List OutputTensor} {filed : String → Option CanonicalTensor}
    (h : naming.resolve raw = .ok outputs) (hcount : raw.data.length = raw.shape.prod)
    (hkept : naming.layout raw.name ≠ .dropped)
    (hfiled : ∀ t ∈ outputs, CanonicalTensor.Full ⟨t.dims, t.data⟩ →
      filed t.name = some ⟨t.dims, t.data⟩) :
    ∃ dims, raw.shape.canonical = .ok dims ∧
      (naming.layout raw.name).Reassembles filed ⟨dims, raw.data⟩ := by
  obtain ⟨dims, hdims, houtputs⟩ := Naming.outputs_of_resolve h
  have hfull := RawTensor.full_of_canonical hdims hcount
  have hfound : ∀ t ∈ outputs, filed t.name = some ⟨t.dims, t.data⟩ := fun t ht =>
    hfiled t ht (houtputs.full hfull t ht)
  refine ⟨dims, hdims, ?_⟩
  -- the names that the layout gives are those under which its outputs were filed
  cases hlayout : naming.layout raw.name with
  | dropped => exact absurd hlayout hkept
  | whole name =>
    rw [hlayout] at houtputs
    obtain rfl : outputs = [CanonicalTensor.named ⟨dims, raw.data⟩ name] := houtputs
    exact hfound _ (List.mem_singleton_self _)
  | fusedAttention block ending =>
    rw [hlayout] at houtputs
    obtain ⟨width, hinner, rfl⟩ := houtputs
    have hjoin := CanonicalTensor.joinLast_parts hfull hinner
    rw [List.forall_mem_cons, List.forall_mem_cons, List.forall_mem_cons] at hfound
    obtain ⟨hquery, hkey, hvalue, -⟩ := hfound
    exact ⟨_, _, _, hquery, hkey, hvalue, rfl, rfl, hjoin⟩
  | chunkedEmbedding stem =>
    rw [hlayout] at houtputs
    obtain ⟨first, second, hpieces, rfl⟩ := houtputs
    have hjoin := CanonicalTensor.joinMiddle_splitMiddle hfull hpieces
    rw [List.forall_mem_cons, List.forall_mem_cons] at hfound
    obtain ⟨hchunk, hrest, -⟩ := hfound
    refine ⟨first, second, hchunk, hrest, ?_, ?_, hjoin⟩
    all_goals
      obtain ⟨rfl, rfl⟩ := CanonicalTensor.splitMiddle_eq_ok hpieces
      rfl

end FlatWeights
