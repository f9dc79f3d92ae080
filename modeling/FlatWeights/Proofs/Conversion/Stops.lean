import FlatWeights.Proofs.Conversion.Report

/-!
Why a run stops. Requests to the disk that are refused, tensors that are not to be had, and an
output that the emitter turns away itself are all that can stop one (`stop_of_perform`). The third
case comes with the state of the emitter at that point: it has accepted all outputs before the one
that it turns away, so that what it holds against this one can be read off from the outputs alone.

A refused request is always reported as a failed write, and the only other thing that a storage can
lack is a buffer to write through. This is what makes the two kinds of stop that matter elsewhere, a
collision and a number that is too large, a matter of the tensors and the buffer and not of the
disk.
-/

set_option autoImplicit false

namespace FlatWeights

open Emitter

open WeightFile (Header)

/-! ## The disk -/

/-- A write failed: a request was refused, or there was no buffer of that size. -/
inductive Stop.OfWrite (buffer : Nat) : Stop → Prop
  | refused (p : Path) (fault : WriteFault) : OfWrite buffer (.failed (.write p fault))
  | unbuffered (h : Size.bufferLimit ≤ buffer) : OfWrite buffer .overflow

namespace Disk

variable {α β : Type} {buffer : Nat}

/-- A program that stops only where a request is refused, or where there is no buffer of that
size. -/
def OnlyWrites (buffer : Nat) (x : Run (StateM Disk) α) : Prop :=
  ∀ (d : Disk) (stop : Stop), (d.outcome x).1 = .error stop → stop.OfWrite buffer

/-- A program that always comes to its end does not stop at all. -/
theorem onlyWrites_always (x : StateM Disk α) : OnlyWrites buffer (Run.always x) := by
  intro d stop h
  rw [outcome_always] at h
  exact absurd h (by simp)

/-- Neither does one that answers at once. -/
theorem onlyWrites_pure (a : α) : OnlyWrites buffer (pure a) := by
  intro d stop h
  rw [outcome_pure] at h
  exact absurd h (by simp)

/-- What stops a program in two steps stops one of them. -/
theorem onlyWrites_bind {x : Run (StateM Disk) α} {f : α → Run (StateM Disk) β}
    (hx : OnlyWrites buffer x) (hf : ∀ a, OnlyWrites buffer (f a)) :
    OnlyWrites buffer (x >>= f) := by
  intro d stop h
  rw [outcome_bind] at h
  cases hfirst : (d.outcome x).1 with
  | ok a =>
    rw [hfirst] at h
    exact hf a _ stop h
  | error stop' =>
    rw [hfirst] at h
    obtain rfl := Except.error.inj h
    exact hx d stop' hfirst

/-- A request that is refused is reported as a failed write. -/
theorem onlyWrites_require (granted : StateM Disk Bool) (p : Path) (fault : WriteFault) :
    OnlyWrites buffer (Storage.require granted (.write p fault)) := by
  intro d stop h
  rw [outcome_require] at h
  split at h
  · exact absurd h (by simp)
  · obtain rfl := Except.error.inj h
    exact .refused p fault

/-- To make a buffer stops where it has no room, and only there. -/
theorem onlyWrites_makeBuffer (buffer : Nat) : OnlyWrites buffer (Storage.makeBuffer buffer) := by
  by_cases hroom : buffer < Size.bufferLimit
  · rw [Storage.makeBuffer_of_lt hroom]
    exact onlyWrites_pure ()
  · intro d stop h
    rw [Storage.makeBuffer_of_le (Nat.not_lt.1 hroom)] at h
    obtain rfl := Except.error.inj h
    exact .unbuffered (Nat.not_lt.1 hroom)

variable (base : Path) (buffer : Nat)

/-- To look for a file stops for nothing. -/
theorem onlyWrites_contains (p : Path) :
    OnlyWrites buffer ((Storage.below base buffer).contains p) :=
  onlyWrites_always _

/-- To write a file stops where it cannot be created or has no buffer. -/
theorem onlyWrites_write (p : Path) (pieces : List Bytes) :
    OnlyWrites buffer ((Storage.below base buffer).write p pieces) := by
  have hstore : OnlyWrites buffer (do
      Storage.require (FileSystem.create (base.join p)) (.write (base.join p) .createFile)
      Storage.makeBuffer buffer
      Run.always (FileSystem.fill (base.join p) pieces.flatten)) :=
    onlyWrites_bind (onlyWrites_require _ _ _) fun _ =>
      onlyWrites_bind (onlyWrites_makeBuffer buffer) fun _ => onlyWrites_always _
  unfold Storage.below
  simp only
  split
  · exact hstore
  · refine onlyWrites_bind (onlyWrites_always _) fun stands => ?_
    split
    · exact onlyWrites_bind (onlyWrites_require _ _ _) fun _ => hstore
    · exact hstore

/-- To delete stops where the disk refuses it. -/
theorem onlyWrites_delete (p : Path) :
    OnlyWrites buffer ((Storage.below base buffer).delete p) := by
  refine onlyWrites_bind (onlyWrites_always _) fun directory => ?_
  split
  · exact onlyWrites_require _ _ _
  · exact onlyWrites_require _ _ _

theorem onlyWrites_rename (source target : Path) :
    OnlyWrites buffer ((Storage.below base buffer).rename source target) := onlyWrites_require _ _ _

/-- To make directories stops where the disk refuses it. -/
theorem onlyWrites_createDirs (p : Path) :
    OnlyWrites buffer ((Storage.below base buffer).createDirs p) :=
  onlyWrites_require _ _ _

/-- The start of a run asks for directories and a removal, and for nothing else. -/
theorem onlyWrites_start (output : OutputSettings) :
    OnlyWrites buffer (start (Storage.below base buffer) output) := by
  refine onlyWrites_bind (onlyWrites_createDirs base buffer _) fun _ =>
    onlyWrites_bind (onlyWrites_contains base buffer _) fun stands => ?_
  have hmake : OnlyWrites buffer (do
      (Storage.below base buffer).createDirs (staging output)
      return ({ output } : Emitter)) :=
    onlyWrites_bind (onlyWrites_createDirs base buffer _) fun _ => onlyWrites_pure _
  split
  · exact onlyWrites_bind (onlyWrites_delete base buffer _) fun _ => hmake
  · exact hmake

/-- A run that starts has staged nothing yet. -/
theorem emitter_of_start {d e : Disk} {output : OutputSettings} {emitter : Emitter}
    (h : d.outcome (start (Storage.below base buffer) output) = (.ok emitter, e)) :
    emitter = { output } := by
  rw [start] at h
  obtain ⟨_, d₁, -, h⟩ := outcome_bind_eq_ok_iff.1 h
  obtain ⟨stands, d₂, -, h⟩ := outcome_bind_eq_ok_iff.1 h
  split at h
  · obtain ⟨_, d₃, -, h⟩ := outcome_bind_eq_ok_iff.1 h
    obtain ⟨_, d₄, -, h⟩ := outcome_bind_eq_ok_iff.1 h
    exact (Except.ok.inj (Prod.mk.inj h).1).symm
  · obtain ⟨_, d₃, -, h⟩ := outcome_bind_eq_ok_iff.1 h
    exact (Except.ok.inj (Prod.mk.inj h).1).symm

/-- To put files in place asks for one move after the other. -/
theorem onlyWrites_publish (output : OutputSettings) (names : List String) :
    OnlyWrites buffer (publish (Storage.below base buffer) output names) := by
  induction names with
  | nil => exact onlyWrites_pure ()
  | cons name rest ih => exact onlyWrites_bind (onlyWrites_rename base buffer _ _) fun _ => ih

/-- To stage a file stops where writing or moving it does, whatever its clean-up comes to. -/
theorem onlyWrites_stage {d : Disk} {emitter : Emitter} {stop : Stop} {name : String}
    {pieces : List Bytes}
    (h : (d.emitted emitter (stage (Storage.below base buffer) name pieces)).1.1 = .error stop) :
    stop.OfWrite buffer := by
  have hwrite (p : Path) := onlyWrites_write base buffer p pieces d
  rw [emitted_stage] at h
  split at h
  · have hfirst := hwrite (tempPath emitter.output name)
    cases houtcome :
        d.outcome ((Storage.below base buffer).write (tempPath emitter.output name) pieces) with
    | mk result d' =>
    rw [houtcome] at h hfirst
    cases result with
    | error stop' =>
      -- the clean-up after a failed write does not change why it failed
      obtain rfl : stop' = stop := by
        cases stop' <;> exact Except.error.inj h
      exact hfirst stop' rfl
    | ok _ =>
      simp only at h
      exact onlyWrites_rename base buffer _ _ d' stop h
  · simp only at h
    exact hwrite _ stop h

/-- To commit stops where moving a file or removing the staging directory does. -/
theorem onlyWrites_commit {d : Disk} {emitter : Emitter} {stop : Stop}
    (h : (d.emitted emitter (commit (Storage.below base buffer))).1.1 = .error stop) :
    stop.OfWrite buffer := by
  rw [commit, emitted_bind_ok (emitted_get d emitter), emitted_bind, emitted_perform] at h
  have hpublish := onlyWrites_publish base buffer emitter.output emitter.written.toList d
  cases hfirst : (d.outcome (publish (Storage.below base buffer) emitter.output
      emitter.written.toList)).1 with
  | error stop' =>
    rw [hfirst] at h
    obtain rfl := Except.error.inj h
    exact hpublish stop' hfirst
  | ok _ =>
    rw [hfirst] at h
    simp only at h
    rw [emitted_bind, emitted_perform] at h
    have hdelete := onlyWrites_delete base buffer (staging emitter.output)
      (d.outcome (publish (Storage.below base buffer) emitter.output emitter.written.toList)).2
    split at h
    · exact absurd h (by simp)
    · rename_i stop' hsecond
      obtain rfl := Except.error.inj h
      exact hdelete stop' hsecond

end Disk

/-! ## The emitter -/

/-- An emitter turns an output away, or cannot count its bytes. -/
inductive Emitter.Refuses (emitter : Emitter) (t : OutputTensor) : Stop → Prop where
  | objects {failure : Failure} : emitter.objection? t = some failure →
    emitter.Refuses t (.failed failure)
  | uncounted {header : Header} : Header.ofDims? t.dims = some header →
    emitter.total? header = none → emitter.Refuses t .overflow

theorem Emitter.refuses_bare {emitter : Emitter} {t : OutputTensor} {stop : Stop} :
    emitter.bare.Refuses t stop ↔ emitter.Refuses t stop := by
  constructor
  · rintro (hobjection | ⟨hheader, htotal⟩)
    · exact .objects hobjection
    · exact .uncounted hheader htotal
  · rintro (hobjection | ⟨hheader, htotal⟩)
    · exact .objects hobjection
    · exact .uncounted hheader htotal

namespace Disk

variable {d e : Disk} {base : Path} {buffer : Nat} {output : OutputSettings}
  {emitter next : Emitter} {t : OutputTensor} {outs : List OutputTensor} {stop : Stop}
  {naming : Naming} {checkpoint : Checkpoint} {keys : List String}

/-- Two ways to say why a program stopped say the same. -/
theorem stop_inj {α σ : Type} {stop stop' : Stop} {s s' : σ}
    (h : (((.error stop : Except Stop α), s), d) = ((.error stop', s'), e)) : stop = stop' :=
  Except.error.inj (Prod.mk.inj (Prod.mk.inj h).1).1

/-- An output that is not staged was turned away, or a request was refused. -/
theorem stop_of_emit
    (h : d.emitted emitter (emit (Storage.below base buffer) t) = ((.error stop, next), e)) :
    emitter.Refuses t stop ∨ stop.OfWrite buffer := by
  cases hobjection : emitter.objection? t with
  | some failure =>
    rw [emitted_emit_of_objection hobjection] at h
    obtain rfl := stop_inj h
    exact .inl (.objects hobjection)
  | none =>
  obtain ⟨header, hheader, ⟨stop', e', hstage, hemit⟩ | ⟨e', -, hemit⟩⟩ :=
    stopped_or_recorded d base buffer hobjection
  · rw [hemit] at h
    obtain rfl := stop_inj h
    exact .inr (onlyWrites_stage base buffer (congrArg (·.1.1) hstage))
  · -- what is counted does not depend on the name that was noted
    have htotal : (d.noting (Storage.below base buffer) emitter t.name).total? header =
        emitter.total? header :=
      congrArg (fun emitter => emitter.total? header) (noting_bare ..)
    rw [hemit, recorded, htotal] at h
    cases hcount : emitter.total? header with
    | none =>
      rw [hcount] at h
      obtain rfl := stop_inj h
      exact .inl (.uncounted hheader hcount)
    | some total =>
      rw [hcount] at h
      exact absurd h (by simp)

/-- An output that is staged was accepted. -/
theorem accept?_of_emit {p : Path}
    (h : d.emitted emitter (emit (Storage.below base buffer) t) = ((.ok p, next), e)) :
    emitter.bare.accept? t = some next.bare := by
  have hall : emitter.bare.acceptAll? [t] =
      some (d.offered (Storage.below base buffer) emitter [t]).1.2.bare := by
    apply acceptAll?_of_offered
    rw [offered_cons, h]
    simp [Except.isOk, Except.toBool]
  rw [acceptAll?_cons, offered_cons, h] at hall
  cases haccept : emitter.bare.accept? t with
  | none =>
    rw [haccept] at hall
    exact absurd hall (by simp)
  | some accepted =>
    rw [haccept] at hall
    exact hall

/-- Why a run stops at one of its outputs: all before it were accepted, and it was turned away. -/
def Halts (emitter : Emitter) (outs : List OutputTensor) (stop : Stop) : Prop :=
  ∃ done t rest next, outs = done ++ t :: rest ∧ emitter.bare.acceptAll? done = some next ∧
    next.Refuses t stop

/-- **Why the outputs of a key are not all staged.** One of them was turned away, or a write failed.
-/
theorem stop_of_emitAll {next : Emitter}
    (h : d.emitted emitter (Conversion.emitAll (Storage.below base buffer) outs) =
      ((.error stop, next), e)) : Halts emitter outs stop ∨ stop.OfWrite buffer := by
  -- an output that was staged goes in front of those that were accepted before the stop
  induction outs generalizing d emitter with
  | nil => exact absurd (Prod.mk.inj (Prod.mk.inj h).1).1 (by simp)
  | cons t outs ih =>
    cases hemit : d.emitted emitter (emit (Storage.below base buffer) t) with
    | mk answer d' =>
    obtain ⟨result, second⟩ := answer
    rw [Conversion.emitAll, emitted_bind, hemit] at h
    cases result with
    | error stop' =>
      obtain rfl := stop_inj h
      refine (stop_of_emit hemit).imp_left fun hrefuses => ?_
      exact ⟨[], t, outs, emitter.bare, rfl, rfl, refuses_bare.2 hrefuses⟩
    | ok p =>
      refine (ih h).imp_left ?_
      rintro ⟨done, t', rest, last, rfl, haccepted, hrefuses⟩
      refine ⟨t :: done, t', rest, last, rfl, ?_, hrefuses⟩
      rw [acceptAll?_cons, accept?_of_emit hemit]
      exact haccepted

/-- Outputs that are all staged were all accepted. -/
theorem acceptAll?_of_emitAll {next : Emitter}
    (h : d.emitted emitter (Conversion.emitAll (Storage.below base buffer) outs) =
      ((.ok (), next), e)) :
    emitter.bare.acceptAll? outs = some next.bare := by
  induction outs generalizing d emitter with
  | nil =>
    obtain rfl := (Prod.mk.inj (Prod.mk.inj h).1).2
    rfl
  | cons t outs ih =>
    rw [Conversion.emitAll] at h
    obtain ⟨p, second, d', hemit, hrest⟩ := emitted_bind_eq_ok_iff.1 h
    rw [acceptAll?_cons, accept?_of_emit hemit]
    exact ih hrest

/-- **Why the keys of a run are not all converted.** -/
theorem stop_of_convertKeys (progress : Progress (List String)) (run run' : Conversion)
    (h : d.run (Conversion.convertKeys (Storage.below base buffer) naming checkpoint keys progress
      run) =
      ((.error stop, run'), e)) :
    (∃ key ∈ keys, (checkpoint.get key >>= naming.resolve) = .error stop) ∨
      Halts run.emitter (checkpoint.resolvedOf naming keys) stop ∨ stop.OfWrite buffer := by
  induction keys generalizing run progress d with
  | nil => exact absurd (Prod.mk.inj (Prod.mk.inj h).1).1 (by simp)
  | cons key keys ih =>
    rw [run_convertKeys_step] at h
    rw [Checkpoint.resolvedOf]
    cases hkey : checkpoint.get key >>= naming.resolve with
    | error stop' =>
      rw [hkey] at h
      obtain rfl := stop_inj h
      exact .inl ⟨key, by simp, hkey⟩
    | ok outputs =>
    rw [hkey] at h
    simp only at h ⊢
    cases hall : d.emitted run.emitter (Conversion.emitAll (Storage.below base buffer) outputs) with
    | mk answer d' =>
    obtain ⟨result, second⟩ := answer
    rw [hall] at h
    cases result with
    | error stop' =>
      obtain rfl := stop_inj h
      refine .inr ((stop_of_emitAll hall).imp_left ?_)
      rintro ⟨done, t, rest, last, rfl, haccepted, hrefuses⟩
      exact ⟨done, t, rest ++ checkpoint.resolvedOf naming keys, last, by simp, haccepted, hrefuses⟩
    | ok _ =>
      -- what stops a later key stands behind the outputs of this one
      rcases ih _ _ h with ⟨key', hkey', hstop⟩ |
        ⟨done, t, rest, last, hsplit, haccepted, hrefuses⟩ | hwrite
      · exact .inl ⟨key', List.mem_cons_of_mem key hkey', hstop⟩
      · refine .inr (.inl ⟨outputs ++ done, t, rest, last, by simp [hsplit], ?_, hrefuses⟩)
        rw [acceptAll?_append, acceptAll?_of_emitAll hall]
        exact haccepted
      · exact .inr (.inr hwrite)

/-- **Why a run stops.** A tensor is not to be had, an output is turned away after all before it
were accepted, or a write failed. -/
theorem stop_of_perform
    (h : (d.run (Conversion.perform (Storage.below base buffer) output naming
      checkpoint)).1.result = .error stop) :
    (∃ key ∈ checkpoint.keys, (checkpoint.get key >>= naming.resolve) = .error stop) ∨
      Halts { output } (checkpoint.resolved naming) stop ∨ stop.OfWrite buffer := by
  rw [run_perform] at h
  have hbegin := onlyWrites_start base buffer output d
  cases hstart : d.outcome (start (Storage.below base buffer) output) with
  | mk result d₁ =>
  rw [hstart] at h hbegin
  cases result with
  | error stop' =>
    obtain rfl := Except.error.inj h
    exact .inr (.inr (hbegin stop' rfl))
  | ok emitter =>
  obtain rfl : emitter = { output } := emitter_of_start base buffer hstart
  simp only at h
  cases hkeys : d₁.run (Conversion.convertKeys (Storage.below base buffer) naming checkpoint
      checkpoint.keys (Progress.start Source.exact checkpoint.keys) { emitter := { output } }) with
  | mk converted d₂ =>
  obtain ⟨result, run⟩ := converted
  rw [hkeys] at h
  cases result with
  | error stop' =>
    obtain rfl : stop' = stop := by
      cases stop' <;> exact Except.error.inj h
    exact stop_of_convertKeys _ _ _ hkeys
  | ok _ =>
  simp only at h
  cases hcommit : d₂.emitted run.emitter (commit (Storage.below base buffer)) with
  | mk committed d₃ =>
  obtain ⟨result, last⟩ := committed
  rw [hcommit] at h
  cases result with
  | ok stats => exact absurd h (by simp)
  | error stop' =>
    obtain rfl : stop' = stop := by
      cases stop' <;> exact Except.error.inj h
    exact .inr (.inr (onlyWrites_commit base buffer (congrArg (·.1.1) hcommit)))

end Disk

end FlatWeights
