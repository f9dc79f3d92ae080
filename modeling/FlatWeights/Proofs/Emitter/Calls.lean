import FlatWeights.Proofs.Emitter.Commit

/-!
Calls of an emitter on any storage, also one that fails where it likes. A call is refused before
anything is touched (`objection?`), or the name is noted first and the file is staged afterwards:
`emitter_of_ok` and `emitter_of_error` say what either leaves of the emitter. The name stays noted
where staging fails, so a failed call is undone only if it was refused or its name was not new
(`emit_failed`).

`offer` gives tensors to an emitter one after the other, whatever becomes of each.
-/

set_option autoImplicit false

namespace FlatWeights

open WeightFile (Header)

/-- A tensor with a name that files may have and with lengths that have room in a header. -/
def OutputTensor.Acceptable (t : OutputTensor) : Prop :=
  validOutputName t.name = true ∧ (Header.ofDims? t.dims).isSome = true

instance (t : OutputTensor) : Decidable t.Acceptable := inferInstanceAs (Decidable (_ ∧ _))

namespace Emitter

variable {m : Type → Type} [Monad m]

/-! ## What comes before any request -/

/-- Why a tensor is turned away before anything is asked of the storage, if it is. -/
def objection? (emitter : Emitter) (t : OutputTensor) : Option Failure :=
  if validOutputName t.name then
    match Header.ofDims? t.dims with
    | none => some (.write (finalPath emitter.output t.name) (.tooLongForHeader t.dims))
    | some _ => if emitter.MayWrite t.name then none else some (.collision t.name)
  else some (.write (finalPath emitter.output t.name) (.invalidName t.name))

/-- A tensor that could be staged and whose name was not given before. -/
structure Unseen (emitter : Emitter) (t : OutputTensor) : Prop where
  acceptable : t.Acceptable
  new : emitter.written.contains t.name = false

variable {emitter : Emitter} {t : OutputTensor}

/-- An emitter has nothing against a tensor that is acceptable and whose name may be written. -/
theorem objection?_eq_none_iff :
    emitter.objection? t = none ↔ t.Acceptable ∧ emitter.MayWrite t.name := by
  unfold objection? OutputTensor.Acceptable
  split
  · rename_i hname
    cases Header.ofDims? t.dims with
    | none => simp
    | some header => simp [hname]
  · rename_i hname
    simp [hname]

/-- A name collides if only that is held against its tensor. -/
theorem objection?_eq_collision_iff {name : String} :
    emitter.objection? t = some (.collision name) ↔
      (t.Acceptable ∧ ¬ emitter.MayWrite t.name) ∧ t.name = name := by
  unfold objection? OutputTensor.Acceptable
  split
  · rename_i hname
    cases Header.ofDims? t.dims with
    | none => simp
    | some header => simp [hname]
  · rename_i hname
    simp [hname]

/-- A name may not be written if it was and the policy is to fail. -/
theorem not_mayWrite_iff {name : String} : ¬ emitter.MayWrite name ↔
    emitter.written.contains name = true ∧ emitter.output.onCollision = .error := by
  unfold MayWrite
  cases emitter.output.onCollision <;> simp

/-- An emitter has nothing against an acceptable tensor whose name it has not seen. -/
theorem Unseen.objection? (h : emitter.Unseen t) : emitter.objection? t = none := by
  apply objection?_eq_none_iff.2
  refine ⟨h.acceptable, ?_⟩
  intro hwritten
  rw [h.new] at hwritten
  exact absurd hwritten (by simp)

/-! ## Many calls -/

/-- Give tensors to an emitter one after the other, whatever becomes of each. The answers stand
beside the tensors. -/
def offer (storage : Storage m) :
    List OutputTensor → StateT Emitter m (List (OutputTensor × Except Stop Path))
  | [] => return []
  | t :: rest => do
    let answer ← (emit storage t).run
    return (t, answer) :: (← offer storage rest)

end Emitter

open Emitter

namespace Disk

variable {d d' e : Disk} {storage : Storage (StateM Disk)} {emitter emitter' : Emitter}
  {t : OutputTensor} {stop : Stop} {p : Path} {name : String}

/-! ## One call -/

/-- A name that was not seen is added, and counted if the output directory has its file. -/
theorem noting_of_unseen (h : emitter.Unseen t) :
    d.noting storage emitter t.name = { emitter with
      written := emitter.written.add t.name
      stats.overwritten := emitter.stats.overwritten +
        if d.holds storage (finalPath emitter.output t.name) then 1 else 0 } := by
  unfold noting
  rw [h.new]
  rfl

/-- A tensor that is refused leaves everything as it is. -/
theorem emitted_emit_of_objection {failure : Failure} (h : emitter.objection? t = some failure) :
    d.emitted emitter (emit storage t) = ((.error (.failed failure), emitter), d) := by
  rw [emitted_emit]
  unfold objection? at h
  split at h
  · rename_i hname
    rw [if_pos hname]
    cases hheader : Header.ofDims? t.dims with
    | none =>
      rw [hheader] at h
      obtain rfl := Option.some.inj h
      rfl
    | some header =>
      rw [hheader] at h
      simp only at h ⊢
      split at h
      · exact absurd h (by simp)
      · rename_i hmay
        obtain rfl := Option.some.inj h
        rw [emitted_bind_error (emitted_claim_collision hmay storage)]
  · rename_i hname
    rw [if_neg hname]
    obtain rfl := Option.some.inj h
    rfl

/-- A tensor that is not refused has a header; its name is noted, its file is staged, and it is
counted. -/
theorem emitted_emit_of_acceptable (d : Disk) (storage : Storage (StateM Disk))
    (h : emitter.objection? t = none) : ∃ header, Header.ofDims? t.dims = some header ∧
      d.emitted emitter (emit storage t) = d.emitted emitter (do
        claim storage t.name
        stage storage t.name (WeightFile.pieces header t.data)
        record header
        return finalPath emitter.output t.name) := by
  obtain ⟨⟨hname, hheader⟩, -⟩ := objection?_eq_none_iff.1 h
  obtain ⟨header, hheader⟩ := Option.isSome_iff_exists.1 hheader
  refine ⟨header, hheader, ?_⟩
  rw [emitted_emit, if_pos hname, hheader]

/-- Noting a name that may be written fails only where the storage does, and the name is noted all
the same. -/
theorem claimed_emitter (d : Disk) (storage : Storage (StateM Disk))
    (hmay : emitter.MayWrite t.name) :
    (d.emitted emitter (claim storage t.name)).1.2 = d.noting storage emitter t.name := by
  rw [claim, emitted_bind_ok (emitted_get d emitter)]
  by_cases hwritten : emitter.written.contains t.name = true
  · simp only [hwritten, if_true, hmay hwritten, noting]
    rfl
  · simp only [hwritten, noting]
    rw [if_neg (by simp), if_neg (by simp), emitted_bind_ok (emitted_set ..), emitted_bind,
      emitted_perform, holds]
    cases (d.outcome (storage.contains (finalPath emitter.output t.name))).1 with
    | error stop => rfl
    | ok there => cases there <;> rfl

/-- To stage a file leaves the emitter alone. -/
theorem staged_emitter (d : Disk) (storage : Storage (StateM Disk)) (emitter : Emitter)
    (name : String) (pieces : List Bytes) :
    (d.emitted emitter (stage storage name pieces)).1.2 = emitter := by
  rw [emitted_stage]
  split
  · cases d.outcome (storage.write (tempPath emitter.output name) pieces) with
    | mk result e =>
    cases result with
    | ok a => rfl
    | error stop => cases stop <;> rfl
  · rfl

/-- On a disk, a tensor to which there is no objection has its name noted; then its file is staged
and counted, or staging it stops the call. -/
theorem stopped_or_recorded (d : Disk) (base : Path) (buffer : Nat)
    (hopen : emitter.objection? t = none) :
    ∃ header, Header.ofDims? t.dims = some header ∧
      let noted := d.noting (Storage.below base buffer) emitter t.name
      let staged := d.emitted noted
        (stage (Storage.below base buffer) t.name (WeightFile.pieces header t.data))
      ((∃ stop e, staged = ((.error stop, noted), e) ∧
          d.emitted emitter (emit (Storage.below base buffer) t) = ((.error stop, noted), e)) ∨
        ∃ e, staged = ((.ok (), noted), e) ∧ d.emitted emitter
          (emit (Storage.below base buffer) t) =
          (noted.recorded header (finalPath emitter.output t.name), e)) := by
  obtain ⟨header, hheader, hemit⟩ := emitted_emit_of_acceptable d (Storage.below base buffer) hopen
  refine ⟨header, hheader, ?_⟩
  intro noted staged
  have hsame := staged_emitter d (Storage.below base buffer) noted t.name
    (WeightFile.pieces header t.data)
  rw [hemit, emitted_bind_ok (emitted_claim d base (objection?_eq_none_iff.1 hopen).2)]
  cases hstage : d.emitted noted
      (stage (Storage.below base buffer) t.name (WeightFile.pieces header t.data)) with
  | mk answer e =>
  obtain ⟨result, last⟩ := answer
  rw [hstage] at hsame
  obtain rfl : last = noted := hsame
  cases result with
  | error stop => exact .inl ⟨stop, e, hstage, emitted_bind_error hstage _⟩
  | ok _ =>
    right
    refine ⟨e, hstage, ?_⟩
    rw [emitted_bind_ok hstage, emitted_record]

/-- A tensor to which there is no objection: its name is noted whatever becomes of it, and it is
counted if its file is staged and the bytes can be counted. -/
theorem emit_cases (d : Disk) (storage : Storage (StateM Disk))
    (hopen : emitter.objection? t = none) : ∃ header, Header.ofDims? t.dims = some header ∧
      ((∃ stop e, d.emitted emitter (emit storage t) =
          ((.error stop, d.noting storage emitter t.name), e)) ∨
        ∃ total e, (d.noting storage emitter t.name).total? header = some total ∧
          d.emitted emitter (emit storage t) = ((.ok (finalPath emitter.output t.name),
            (d.noting storage emitter t.name).counted total), e)) := by
  obtain ⟨header, hheader, hemit⟩ := emitted_emit_of_acceptable d storage hopen
  refine ⟨header, hheader, ?_⟩
  rw [hemit]
  have hclaimed := claimed_emitter d storage (objection?_eq_none_iff.1 hopen).2
  cases hclaim : d.emitted emitter (claim storage t.name) with
  | mk claimed d₂ =>
  obtain ⟨result, noted⟩ := claimed
  rw [hclaim] at hclaimed
  obtain rfl : noted = d.noting storage emitter t.name := hclaimed
  cases result with
  | error stop =>
    left
    exact ⟨stop, d₂, emitted_bind_error hclaim _⟩
  | ok _ =>
  rw [emitted_bind_ok hclaim]
  have hsame := staged_emitter d₂ storage (d.noting storage emitter t.name) t.name
    (WeightFile.pieces header t.data)
  cases hstage : d₂.emitted (d.noting storage emitter t.name)
      (stage storage t.name (WeightFile.pieces header t.data)) with
  | mk staged d₃ =>
  obtain ⟨result, noted⟩ := staged
  rw [hstage] at hsame
  obtain rfl : noted = d.noting storage emitter t.name := hsame
  cases result with
  | error stop =>
    left
    exact ⟨stop, d₃, emitted_bind_error hstage _⟩
  | ok _ =>
  rw [emitted_bind_ok hstage, emitted_record, recorded]
  -- only the count of the bytes can still fail
  cases htotal : (d.noting storage emitter t.name).total? header with
  | none =>
    left
    exact ⟨.overflow, d₃, rfl⟩
  | some total =>
    right
    exact ⟨total, d₃, rfl, rfl⟩

/-- A call that fails has noted the name, or was refused. -/
theorem emitter_of_error (h : d.emitted emitter (emit storage t) = ((.error stop, emitter'), e)) :
    emitter' =
      if emitter.objection? t = none then d.noting storage emitter t.name else emitter := by
  cases hobjection : emitter.objection? t with
  | some failure =>
    rw [emitted_emit_of_objection hobjection] at h
    rw [if_neg (by simp)]
    exact (Prod.mk.inj (Prod.mk.inj h).1).2.symm
  | none =>
    rw [if_pos rfl]
    obtain ⟨header, -, ⟨stop', e', hemit⟩ | ⟨total, e', -, hemit⟩⟩ :=
      emit_cases d storage hobjection
    · rw [hemit] at h
      exact (Prod.mk.inj (Prod.mk.inj h).1).2.symm
    · rw [hemit] at h
      exact absurd (Prod.mk.inj (Prod.mk.inj h).1).1 (by simp)

/-- A call that succeeds has noted the name and counted the file. -/
theorem emitter_of_ok (h : d.emitted emitter (emit storage t) = ((.ok p, emitter'), e)) :
    emitter.objection? t = none ∧ ∃ header total, Header.ofDims? t.dims = some header ∧
      (d.noting storage emitter t.name).total? header = some total ∧
      emitter' = (d.noting storage emitter t.name).counted total := by
  cases hobjection : emitter.objection? t with
  | some failure =>
    rw [emitted_emit_of_objection hobjection] at h
    exact absurd (Prod.mk.inj (Prod.mk.inj h).1).1 (by simp)
  | none =>
    obtain ⟨header, hheader, ⟨stop, e', hemit⟩ | ⟨total, e', htotal, hemit⟩⟩ :=
      emit_cases d storage hobjection
    · rw [hemit] at h
      exact absurd (Prod.mk.inj (Prod.mk.inj h).1).1 (by simp)
    · rw [hemit] at h
      exact ⟨rfl, header, total, hheader, htotal, (Prod.mk.inj (Prod.mk.inj h).1).2.symm⟩

/-- The settings of an emitter stay. -/
theorem emitted_emit_output (d : Disk) (storage : Storage (StateM Disk)) (emitter : Emitter)
    (t : OutputTensor) : (d.emitted emitter (emit storage t)).1.2.output = emitter.output := by
  cases hobjection : emitter.objection? t with
  | some failure => rw [emitted_emit_of_objection hobjection]
  | none =>
    obtain ⟨header, -, ⟨stop, e, hemit⟩ | ⟨total, e, -, hemit⟩⟩ := emit_cases d storage hobjection
    · rw [hemit]
      exact noting_output t.name
    · rw [hemit]
      exact noting_output t.name

/-! ## Calls one after the other -/

/-- The answers to tensors that are given to an emitter, the emitter then, and the disk. -/
def offered (d : Disk) (storage : Storage (StateM Disk)) (emitter : Emitter)
    (calls : List OutputTensor) : (List (OutputTensor × Except Stop Path) × Emitter) × Disk :=
  d.run (StateT.run (offer storage calls) emitter)

section Offered

variable {front back calls : List OutputTensor}

@[simp] theorem offered_nil : d.offered storage emitter [] = (([], emitter), d) := rfl

/-- The first call is made before the others. -/
theorem offered_cons : d.offered storage emitter (t :: calls) =
    (((t, (d.emitted emitter (emit storage t)).1.1) ::
        ((d.emitted emitter (emit storage t)).2.offered storage
          (d.emitted emitter (emit storage t)).1.2 calls).1.1,
      ((d.emitted emitter (emit storage t)).2.offered storage
        (d.emitted emitter (emit storage t)).1.2 calls).1.2),
      ((d.emitted emitter (emit storage t)).2.offered storage
        (d.emitted emitter (emit storage t)).1.2 calls).2) := rfl

/-- Calls are made one after the other. -/
theorem offered_append : d.offered storage emitter (front ++ back) =
    (((d.offered storage emitter front).1.1 ++
        ((d.offered storage emitter front).2.offered storage
          (d.offered storage emitter front).1.2 back).1.1,
      ((d.offered storage emitter front).2.offered storage
        (d.offered storage emitter front).1.2 back).1.2),
      ((d.offered storage emitter front).2.offered storage
        (d.offered storage emitter front).1.2 back).2) := by
  induction front generalizing d emitter with
  | nil => rfl
  | cons t front ih =>
    rw [List.cons_append, offered_cons, ih, offered_cons]
    rfl

/-- One more call, after all others. -/
theorem offered_concat : d.offered storage emitter (calls ++ [t]) =
    let before := d.offered storage emitter calls
    let call := before.2.emitted before.1.2 (emit storage t)
    ((before.1.1 ++ [(t, call.1.1)], call.1.2), call.2) := by
  rw [offered_append, offered_cons]
  rfl

/-- What holds of an emitter and a disk holds after any number of calls if each call keeps it. -/
theorem offered_induction {P : Emitter → Disk → Prop}
    (hstep : ∀ t ∈ calls, ∀ emitter d, P emitter d →
      P (d.emitted emitter (emit storage t)).1.2 (d.emitted emitter (emit storage t)).2)
    (h : P emitter d) :
    P (d.offered storage emitter calls).1.2 (d.offered storage emitter calls).2 := by
  induction calls generalizing d emitter with
  | nil => exact h
  | cons t calls ih =>
    rw [offered_cons]
    apply ih
    · intro t' ht'
      exact hstep t' (List.mem_cons_of_mem t ht')
    · exact hstep t (by simp) emitter d h

/-- Calls do not change where the files go. -/
theorem offered_output (d : Disk) (storage : Storage (StateM Disk)) (emitter : Emitter)
    (calls : List OutputTensor) :
    (d.offered storage emitter calls).1.2.output = emitter.output :=
  offered_induction (P := fun next _ => next.output = emitter.output)
    (fun _ _ _ _ h => (emitted_emit_output ..).trans h) rfl

end Offered

/-! ## A call that fails -/

/-- A commit that succeeds has moved the file of every name that was noted. -/
theorem moved_of_commit {stats : EmitStats} (hname : name ∈ emitter.written.toList)
    (h : d.emitted emitter (commit storage) = ((.ok stats, emitter'), e)) :
    ∃ d₂ d₃ : Disk, d₂.outcome (storage.rename (stagedPath emitter.output name)
      (finalPath emitter.output name)) = (.ok (), d₃) := by
  obtain ⟨d₂, hpublish, -⟩ := publish_of_commit h
  obtain ⟨front, back, hsplit⟩ := List.append_of_mem hname
  rw [hsplit, publish_append, outcome_bind_eq_ok_iff] at hpublish
  obtain ⟨_, d₃, -, hrest⟩ := hpublish
  rw [publish, outcome_bind_eq_ok_iff] at hrest
  obtain ⟨_, d₄, hmoved, -⟩ := hrest
  exact ⟨d₃, d₄, hmoved⟩

/-- **What a call that fails leaves.** The names and the counts are what they were exactly if the
tensor was turned away or its name had been noted before. Otherwise the name stays noted, and counts
as overwritten if the output directory has its file, although no file was staged: where names may
not collide, every later tensor of that name is a collision, and a commit that is to succeed has to
move a file of that name. -/
theorem emit_failed (h : d.emitted emitter (emit storage t) = ((.error stop, emitter'), e)) :
    (emitter'.written = emitter.written ∧ emitter'.stats = emitter.stats ↔ ¬ emitter.Unseen t) ∧
    (emitter.Unseen t →
      emitter'.written = emitter.written.add t.name ∧
      emitter'.stats = ⟨emitter.stats.files, emitter.stats.bytes, emitter.stats.overwritten +
        if d.holds storage (finalPath emitter.output t.name) then 1 else 0⟩ ∧
      (emitter.output.onCollision = .error → ∀ (d' : Disk) (storage' : Storage (StateM Disk))
        (later : OutputTensor), later.Acceptable → later.name = t.name →
        d'.emitted emitter' (emit storage' later) =
          ((.error (.failed (.collision t.name)), emitter'), d')) ∧
      ∀ (d' : Disk) (storage' : Storage (StateM Disk)) (stats : EmitStats) (last : Emitter)
        (f : Disk), d'.emitted emitter' (commit storage') = ((.ok stats, last), f) →
        ∃ d₂ d₃ : Disk, d₂.outcome (storage'.rename (stagedPath emitter.output t.name)
          (finalPath emitter.output t.name)) = (.ok (), d₃)) := by
  have hleft := emitter_of_error h
  by_cases hunseen : emitter.Unseen t
  · rw [if_pos hunseen.objection?, noting_of_unseen hunseen] at hleft
    have hnew : t.name ∉ emitter.written.toList := by
      intro hmem
      have hcontains := NameSet.contains_iff.2 hmem
      rw [hunseen.new] at hcontains
      exact absurd hcontains (by simp)
    have hnoted : t.name ∈ emitter'.written.toList := by
      rw [hleft]
      exact NameSet.mem_toList_add.2 (.inl rfl)
    have houtput : emitter'.output = emitter.output := by rw [hleft]
    refine ⟨⟨?_, fun hno => absurd hunseen hno⟩, fun _ => ⟨by rw [hleft], by rw [hleft], ?_, ?_⟩⟩
    · rintro ⟨hsame, -⟩
      rw [hsame] at hnoted
      exact absurd hnoted hnew
    · intro hpolicy d' storage' later hlater hname
      apply emitted_emit_of_objection
      rw [objection?_eq_collision_iff, not_mayWrite_iff, hname, houtput]
      exact ⟨⟨hlater, NameSet.contains_iff.2 hnoted, hpolicy⟩, rfl⟩
    · intro d' storage' stats last f hcommit
      rw [← houtput]
      exact moved_of_commit hnoted hcommit
  · refine ⟨⟨fun _ => hunseen, fun _ => ?_⟩, fun h => absurd h hunseen⟩
    split at hleft
    · rename_i hopen
      -- there was no objection, so the name had been noted before
      have hwritten : emitter.written.contains t.name = true := by
        by_contra hnew
        exact hunseen ⟨(objection?_eq_none_iff.1 hopen).1, Bool.eq_false_iff.2 hnew⟩
      unfold noting at hleft
      rw [if_pos hwritten] at hleft
      rw [hleft]
      exact ⟨rfl, rfl⟩
    · rw [hleft]
      exact ⟨rfl, rfl⟩

/-! ### A file that cannot take its place among the staged ones -/

/-- A tensor of one element. -/
def speck : OutputTensor := ⟨"a", ⟨1, 1, 1⟩, [1]⟩

/-- The emitter at the start of a run into `out`. -/
def fresh : Emitter := { output := { dir := "out" } }

/-- A staging directory in which a directory has come to stand where the file would wait. -/
def crowded : Disk :=
  { blank with tree := ((FileTree.empty.insert ["out"] .directory).insert [".staging", "out"]
      .directory).insert ["a.bin", ".staging", "out"] .directory }

/-- A directory has come to stand where the file is staged: the call fails, and the name is noted
all the same. -/
theorem emit_failed_crowded :
    let after := crowded.emitted fresh (emit belowHere speck)
    after.1.1 = .error (.failed (.write "./out/.staging/.a.bin.tmp"
        (.renameTo "./out/.staging/a.bin"))) ∧
      ¬ (after.1.2.written = fresh.written ∧ after.1.2.stats = fresh.stats) ∧
      ∀ d : Disk, d.emitted after.1.2 (emit belowHere speck) =
        ((.error (.failed (.collision "a")), after.1.2), d) := by
  have hfails : (crowded.emitted fresh (emit belowHere speck)).1.1 =
      .error (.failed (.write "./out/.staging/.a.bin.tmp" (.renameTo "./out/.staging/a.bin"))) := by
    decide +kernel
  have hunseen : fresh.Unseen speck := ⟨by decide +kernel, by decide +kernel⟩
  intro after
  have hafter : crowded.emitted fresh (emit belowHere speck) = after := rfl
  rw [hafter] at hfails
  -- the call is large as a term, and only its result is used from here on
  clear_value after
  obtain ⟨⟨result, emitter'⟩, e⟩ := after
  obtain rfl := hfails
  obtain ⟨hsame, hnew⟩ := emit_failed hafter
  obtain ⟨-, -, hagain, -⟩ := hnew hunseen
  refine ⟨rfl, fun h => hsame.1 h hunseen, fun d => ?_⟩
  exact hagain rfl d belowHere speck hunseen.acceptable rfl

end Disk

end FlatWeights
