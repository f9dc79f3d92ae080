import FlatWeights.Proofs.Emitter.Files

/-!
Giving tensors to an emitter. What the emitter itself asks of a tensor is a matter of its state
alone (`accept?`); what the disk asks is `Disk.Fits`. A tensor is staged if both agree, and
otherwise the run fails: `emit_of_accepted` and `emit_of_refused`, and the same for a list. The
count of the names that the output directory already had is left out of the comparison (`bare`), as
nothing depends on it.
-/

set_option autoImplicit false

namespace FlatWeights

/-- A set of names contains those that it lists. -/
theorem NameSet.contains_iff {s : NameSet} {x : String} : s.contains x = true ↔ x ∈ s.toList := by
  rw [SortedMap.contains, SortedMap.find?, List.lookup_isSome_iff, NameSet.toList, SortedMap.keys,
    List.mem_map]
  refine exists_congr fun entry => and_congr_right fun _ => ?_
  rw [beq_iff_eq, eq_comm]

namespace Emitter

/-! ## What an emitter asks of a tensor -/

/-- The emitter without the count of names that were there before. -/
def bare (emitter : Emitter) : Emitter :=
  { emitter with stats := { emitter.stats with overwritten := 0 } }

/-- The number of bytes of a run with one more file, if it is a size. -/
def total? (emitter : Emitter) (header : WeightFile.Header) : Option Nat := do
  let payload ← header.payloadLength?
  let bytes ← Size.add? WeightFile.headerLength payload
  Size.add? emitter.stats.bytes bytes

/-- The bytes of one more file are counted with its header, as long as the sum is a size. -/
theorem total?_eq_some_iff {emitter : Emitter} {header : WeightFile.Header} {total : Nat} :
    emitter.total? header = some total ↔ ∃ payload, header.payloadLength? = some payload ∧
      emitter.stats.bytes + (WeightFile.headerLength + payload) = total ∧ total < Size.limit := by
  simp only [total?, Option.bind_eq_bind, Option.bind_eq_some_iff, Size.add?_eq_some_iff]
  constructor
  · rintro ⟨payload, hpayload, bytes, ⟨rfl, -⟩, rfl, hlt⟩
    exact ⟨payload, hpayload, rfl, hlt⟩
  · rintro ⟨payload, hpayload, rfl, hlt⟩
    exact ⟨payload, hpayload, _, ⟨rfl, by omega⟩, rfl, hlt⟩

/-- The emitter once a file is counted, with the number of bytes that there are then. -/
def counted (emitter : Emitter) (total : Nat) : Emitter :=
  { emitter with stats := { emitter.stats with files := emitter.stats.files + 1, bytes := total } }

/-- What comes of counting a file, for an answer that follows: it is given if the bytes can be
counted. -/
def recorded {α : Type} (emitter : Emitter) (header : WeightFile.Header) (answer : α) :
    Except Stop α × Emitter :=
  match emitter.total? header with
  | none => (.error .overflow, emitter)
  | some total => (.ok answer, emitter.counted total)

/-- A file whose bytes can be counted is counted, and the answer given. -/
theorem recorded_of_total {α : Type} {emitter : Emitter} {header : WeightFile.Header} {total : Nat}
    (h : emitter.total? header = some total) (answer : α) :
    emitter.recorded header answer = (.ok answer, emitter.counted total) := by
  rw [recorded, h]

/-- Bytes that cannot be counted take the place of the answer. -/
theorem recorded_of_no_total {α : Type} {emitter : Emitter} {header : WeightFile.Header}
    (h : emitter.total? header = none) (answer : α) :
    emitter.recorded header answer = (.error .overflow, emitter) := by
  rw [recorded, h]

/-- To count a file does not change where it goes. -/
theorem recorded_output {α : Type} (emitter : Emitter) (header : WeightFile.Header) (answer : α) :
    (emitter.recorded header answer).2.output = emitter.output := by
  rw [recorded]
  cases emitter.total? header with
  | none => rfl
  | some total => rfl

/-- To count a file does not note a name. -/
theorem recorded_written {α : Type} (emitter : Emitter) (header : WeightFile.Header)
    (answer : α) : (emitter.recorded header answer).2.written = emitter.written := by
  rw [recorded]
  cases emitter.total? header with
  | none => rfl
  | some total => rfl

/-- The names that were written, with one more. -/
def noted (emitter : Emitter) (name : String) : NameSet :=
  if emitter.written.contains name then emitter.written else emitter.written.add name

/-- The names that are noted are the new one and those from before. -/
theorem mem_noted {emitter : Emitter} {name x : String} :
    x ∈ (emitter.noted name).toList ↔ x = name ∨ x ∈ emitter.written.toList := by
  rw [noted]
  split
  · rename_i hname
    constructor
    · exact .inr
    · rintro (rfl | hx)
      · exact NameSet.contains_iff.1 hname
      · exact hx
  · exact NameSet.mem_toList_add

/-- A name may be written, again if need be. -/
def MayWrite (emitter : Emitter) (name : String) : Prop :=
  emitter.written.contains name = true → emitter.output.onCollision = .warn

instance (emitter : Emitter) (name : String) : Decidable (emitter.MayWrite name) :=
  inferInstanceAs (Decidable (_ → _))

/-- The emitter once a tensor is staged, if nothing but the disk can stand in the way of that. -/
def accept? (emitter : Emitter) (t : OutputTensor) : Option Emitter := do
  let header ← WeightFile.Header.ofDims? t.dims
  let total ← emitter.total? header
  if validOutputName t.name = true ∧ emitter.MayWrite t.name then
    some { emitter with
      written := emitter.noted t.name
      stats := { emitter.stats with files := emitter.stats.files + 1, bytes := total } }
  else none

/-- A tensor is accepted if its header, its bytes and its name are, and nothing else is asked. -/
theorem accept?_eq_some_iff {emitter next : Emitter} {t : OutputTensor} :
    emitter.accept? t = some next ↔ ∃ header total,
      WeightFile.Header.ofDims? t.dims = some header ∧ emitter.total? header = some total ∧
      (validOutputName t.name = true ∧ emitter.MayWrite t.name) ∧
      next = { emitter with
        written := emitter.noted t.name
        stats := { emitter.stats with files := emitter.stats.files + 1, bytes := total } } := by
  simp only [accept?, Option.bind_eq_bind, Option.bind_eq_some_iff, Option.ite_none_right_eq_some,
    Option.some.injEq]
  constructor
  · rintro ⟨header, hheader, total, htotal, hmay, hnext⟩
    exact ⟨header, total, hheader, htotal, hmay, hnext.symm⟩
  · rintro ⟨header, total, hheader, htotal, hmay, hnext⟩
    exact ⟨header, hheader, total, htotal, hmay, hnext.symm⟩

end Emitter

open Emitter

namespace Disk

variable {d d₁ e : Disk} {base : Path} {buffer : Nat} {output : OutputSettings} {l : Location}
  {storage : Storage (StateM Disk)} {emitter : Emitter} {t : OutputTensor}
  {outs : List OutputTensor}

/-! ## The parts of giving a tensor to an emitter -/

/-- A storage says that something is stored at a path. -/
def holds (d : Disk) (storage : Storage (StateM Disk)) (p : Path) : Bool :=
  match (d.outcome (storage.contains p)).1 with
  | .ok there => there
  | .error _ => false

/-- The emitter once a name that it may write is noted. -/
def noting (d : Disk) (storage : Storage (StateM Disk)) (emitter : Emitter) (name : String) :
    Emitter :=
  if emitter.written.contains name then emitter
  else
    { emitter with
      written := emitter.written.add name
      stats.overwritten := emitter.stats.overwritten +
        if d.holds storage (finalPath emitter.output name) then 1 else 0 }

@[simp] theorem noting_output (name : String) :
    (d.noting storage emitter name).output = emitter.output := by
  unfold noting
  split <;> rfl

@[simp] theorem noting_written (name : String) :
    (d.noting storage emitter name).written = emitter.noted name := by
  unfold noting noted
  split <;> rfl

/-- But for the count of names that were there before, the disk has no part in noting a name. -/
theorem noting_bare (d : Disk) (storage : Storage (StateM Disk)) (emitter : Emitter)
    (name : String) : (d.noting storage emitter name).bare =
      { emitter.bare with written := emitter.noted name } := by
  unfold noting noted
  split <;> rfl

/-- A name that may be written is noted, and the disk is only looked at. -/
theorem emitted_claim (d : Disk) (base : Path) (hmay : emitter.MayWrite t.name) :
    d.emitted emitter (claim (Storage.below base buffer) t.name) =
      ((.ok (), d.noting (Storage.below base buffer) emitter t.name), d) := by
  rw [claim, emitted_bind_ok (emitted_get d emitter), noting]
  by_cases hwritten : emitter.written.contains t.name = true
  · simp only [hwritten, if_true, hmay hwritten]
    rfl
  · have hholds : d.holds (Storage.below base buffer) (finalPath emitter.output t.name) =
        (d.kind? (base.join (finalPath emitter.output t.name))).isSome := rfl
    simp only [hwritten, Bool.false_eq_true, if_false, hholds]
    rw [emitted_bind_ok (emitted_set ..),
      emitted_bind_ok (a := (d.kind? (base.join (finalPath emitter.output t.name))).isSome) rfl]
    split <;> rfl

/-- A name that may not be written again stops the call and changes nothing. -/
theorem emitted_claim_collision (hmay : ¬ emitter.MayWrite t.name)
    (storage : Storage (StateM Disk)) : d.emitted emitter (claim storage t.name) =
      ((.error (.failed (.collision t.name)), emitter), d) := by
  have hwritten : emitter.written.contains t.name = true := by
    by_contra h
    exact hmay fun hw => absurd hw h
  have hpolicy : emitter.output.onCollision = .error := by
    cases hp : emitter.output.onCollision with
    | error => rfl
    | warn => exact absurd (fun _ => hp) hmay
  rw [claim, emitted_bind_ok (emitted_get d emitter)]
  simp only [hwritten, if_true, hpolicy]
  rfl

/-- What follows the counting of a file is the answer, if there is one. -/
theorem emitted_record {α : Type} (header : WeightFile.Header) (answer : α) :
    d.emitted emitter (do record header; return answer) = (emitter.recorded header answer, d) := by
  have hrecord : d.emitted emitter (do record header; return answer) = d.emitted emitter (do
      (match emitter.total? header with
        | none => throw .overflow
        | some total => set (emitter.counted total))
      return answer) := by
    rw [record, bind_assoc, emitted_bind_ok (emitted_get d emitter)]
    rfl
  rw [hrecord, recorded]
  cases emitter.total? header with
  | none => rfl
  | some total => rfl

/-- A tensor is given to an emitter in four steps: name and lengths are tested, the name is claimed,
the file is staged, and its bytes are counted. -/
theorem emitted_emit (d : Disk) (emitter : Emitter) (storage : Storage (StateM Disk))
    (t : OutputTensor) :
    d.emitted emitter (emit storage t) =
      if validOutputName t.name then
        match WeightFile.Header.ofDims? t.dims with
        | none => ((.error (.failed (.write (finalPath emitter.output t.name)
            (.tooLongForHeader t.dims))), emitter), d)
        | some header => d.emitted emitter (do
            claim storage t.name
            stage storage t.name (WeightFile.pieces header t.data)
            record header
            return finalPath emitter.output t.name)
      else ((.error (.failed (.write (finalPath emitter.output t.name)
        (.invalidName t.name))), emitter), d) := by
  rw [emit, emitted_bind_ok (emitted_get d emitter)]
  by_cases hname : validOutputName t.name = true
  · simp only [hname, if_true]
    cases WeightFile.Header.ofDims? t.dims with
    | none => rfl
    | some header => rfl
  · simp only [hname]
    rfl

/-! ## One tensor -/

/-- How a run is left where a tensor is not staged after some outputs were. Either the staging
directory is where it was, or the directory that barred the file is gone, and the way with it. -/
inductive Halted (base : Path) (output : OutputSettings) (l : Location) (d₁ : Disk)
    (outs : List OutputTensor) (t : OutputTensor) : Stop → Disk → Prop
  | reached {stop : Stop} {e : Disk} (hreached : Reached base output l d₁ e)
      (haside : Aside base output l d₁ stop) : Halted base output l d₁ outs t stop e
  | cut {d : Disk} (hstaged : Staged base output l d₁ outs d)
      (hbarred : d₁.Barred base output l t.name) :
      Halted base output l d₁ outs t
        (.failed (.write (base.join (tempPath output t.name)) .createFile))
        (d.without (base.join (tempPath output t.name)))

section Run

variable (hout : outputPath base output ≠ "")
  (h₁ : d₁.DirAt (stagingPath base output) (".staging" :: l))
  (hinside : ∀ x content, d₁.tree.find? (x :: ".staging" :: l) ≠ some (.file content))

include hout h₁ hinside

/-- **A tensor that fits is staged**, and its name is noted; what is left is to count it. -/
theorem emit_of_fits (h : Staged base output l d₁ outs d) (houtput : emitter.output = output)
    (hname : validOutputName t.name = true) {header : WeightFile.Header}
    (hheader : WeightFile.Header.ofDims? t.dims = some header) (hmay : emitter.MayWrite t.name)
    (hfits : d₁.Fits base buffer output l t.name) :
    ∃ e, d.emitted emitter (emit (Storage.below base buffer) t) =
        ((d.noting (Storage.below base buffer) emitter t.name).recorded header
          (finalPath emitter.output t.name), e) ∧
      Staged base output l d₁ (outs ++ [t]) e := by
  have hfile : t.file? = some (WeightFile.pieces header t.data).flatten := by
    rw [OutputTensor.file?, hheader]
    rfl
  obtain rfl : (d.noting (Storage.below base buffer) emitter t.name).output = output := by
    rw [noting_output, houtput]
  obtain ⟨e, hstage, hbecame⟩ := stage_of_fits (h.dirAt h₁) hout hname
    (WeightFile.pieces header t.data) (h.fits_iff.2 hfits) (h.clean hinside t.name)
  refine ⟨e, ?_, h.concat hname hfile hfits.place hbecame⟩
  rw [emitted_emit, if_pos hname, hheader]
  simp only
  rw [emitted_bind_ok (emitted_claim d base hmay), emitted_bind_ok hstage, emitted_record]

omit hinside in
/-- Where no buffer can be made, a tensor whose file has a place is not staged, and its name is
noted all the same. -/
theorem emit_of_unbuffered (hbuffer : Size.bufferLimit ≤ buffer)
    (h : Staged base output l d₁ outs d) (houtput : emitter.output = output)
    (hname : validOutputName t.name = true) {header : WeightFile.Header}
    (hheader : WeightFile.Header.ofDims? t.dims = some header) (hmay : emitter.MayWrite t.name)
    (hplace : d₁.HasPlace base output l t.name) :
    ∃ e, d.emitted emitter (emit (Storage.below base buffer) t) =
      ((.error .overflow, d.noting (Storage.below base buffer) emitter t.name), e) := by
  obtain rfl : (d.noting (Storage.below base buffer) emitter t.name).output = output := by
    rw [noting_output, houtput]
  obtain ⟨x, hfirst⟩ := exists_first_name
    (d.noting (Storage.below base buffer) emitter t.name).output t.name
  obtain ⟨htakes, hfree⟩ := h.hasPlace_iff.2 hplace x (List.mem_of_head? hfirst)
  obtain ⟨e, hstage, -⟩ := stage_of_unbuffered (h.dirAt h₁) hout hname
    (WeightFile.pieces header t.data) hbuffer hfirst htakes hfree
  refine ⟨e, ?_⟩
  rw [emitted_emit, if_pos hname, hheader]
  simp only
  rw [emitted_bind_ok (emitted_claim d base hmay), emitted_bind_error hstage]

/-- A tensor that the emitter accepts and that fits is staged. -/
theorem emit_of_accepted (h : Staged base output l d₁ outs d) (houtput : emitter.output = output)
    {next : Emitter} (hnext : emitter.bare.accept? t = some next)
    (hfits : d₁.Fits base buffer output l t.name) :
    ∃ emitter' e, d.emitted emitter (emit (Storage.below base buffer) t) =
        ((.ok (finalPath output t.name), emitter'), e) ∧
      emitter'.bare = next ∧ Staged base output l d₁ (outs ++ [t]) e := by
  obtain ⟨header, total, hheader, htotal, ⟨hname, hmay⟩, rfl⟩ := accept?_eq_some_iff.1 hnext
  obtain ⟨e, hemit, hstaged⟩ :=
    emit_of_fits hout h₁ hinside h houtput hname hheader hmay hfits
  have hbare := noting_bare d (Storage.below base buffer) emitter t.name
  have htotal' : (d.noting (Storage.below base buffer) emitter t.name).total? header = some total :=
    (congrArg (fun emitter => emitter.total? header) hbare).trans htotal
  rw [recorded_of_total htotal', houtput] at hemit
  refine ⟨_, e, hemit, ?_, hstaged⟩
  -- noting a name changes nothing that is counted
  have hcounted : ∀ emitter : Emitter, (emitter.counted total).bare = emitter.bare.counted total :=
    fun _ => rfl
  rw [hcounted, hbare]
  rfl

/-- A tensor that the emitter does not accept or that does not fit is not staged. -/
theorem emit_of_refused (h : Staged base output l d₁ outs d) (houtput : emitter.output = output)
    (hno : ∀ next, emitter.bare.accept? t = some next → ¬ d₁.Fits base buffer output l t.name) :
    ∃ stop emitter' e, d.emitted emitter (emit (Storage.below base buffer) t) =
        ((.error stop, emitter'), e) ∧ Halted base output l d₁ outs t stop e := by
  have hhere : Reached base output l d d := .refl (h.dirAt h₁)
  have hemit := emitted_emit d emitter (Storage.below base buffer) t
  by_cases hname : validOutputName t.name = true
  swap
  · rw [if_neg hname] at hemit
    exact ⟨_, emitter, d, hemit, .reached (h.reached hhere) ⟨by simp, by simp⟩⟩
  rw [if_pos hname] at hemit
  cases hheader : WeightFile.Header.ofDims? t.dims with
  | none =>
    rw [hheader] at hemit
    exact ⟨_, emitter, d, hemit, .reached (h.reached hhere) ⟨by simp, by simp⟩⟩
  | some header =>
  rw [hheader] at hemit
  simp only at hemit
  by_cases hmay : emitter.MayWrite t.name
  swap
  · rw [emitted_bind_error (emitted_claim_collision hmay _)] at hemit
    exact ⟨_, emitter, d, hemit, .reached (h.reached hhere) ⟨by simp, by simp⟩⟩
  by_cases hfits : d₁.Fits base buffer output l t.name
  · -- the file is staged, but there are too many bytes to be counted
    obtain ⟨e, hstages, hstaged⟩ :=
      emit_of_fits hout h₁ hinside h houtput hname hheader hmay hfits
    have hbare := noting_bare d (Storage.below base buffer) emitter t.name
    have hnone : (d.noting (Storage.below base buffer) emitter t.name).total? header = none := by
      refine (congrArg (fun emitter => emitter.total? header) hbare).trans ?_
      rw [← Option.not_isSome_iff_eq_none, Option.isSome_iff_exists]
      rintro ⟨total, htotal⟩
      exact hno _ (accept?_eq_some_iff.2 ⟨header, total, hheader, htotal, ⟨hname, hmay⟩, rfl⟩) hfits
    rw [recorded_of_no_total hnone] at hstages
    exact ⟨_, _, e, hstages, .reached (hstaged.reached (.refl (hstaged.dirAt h₁)))
      ⟨by simp, by simp⟩⟩
  · obtain rfl : (d.noting (Storage.below base buffer) emitter t.name).output = output := by
      rw [noting_output, houtput]
    obtain ⟨stop, e, hstage, hleft⟩ := stage_of_not_fits (h.dirAt h₁) hout hname
      (WeightFile.pieces header t.data) fun hfits' => hfits (h.fits_iff.1 hfits')
    rw [emitted_bind_ok (emitted_claim d base hmay), emitted_bind_error hstage] at hemit
    refine ⟨stop, _, e, hemit, ?_⟩
    rcases hleft with ⟨hreached, haside⟩ | ⟨hbarred, rfl, rfl⟩
    · exact .reached (h.reached hreached) (h.aside haside)
    · exact .cut h (h.barred_iff.1 hbarred)

end Run

end Disk

end FlatWeights
