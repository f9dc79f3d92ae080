import FlatWeights.Emitter
import FlatWeights.FileSystem.Disk

/-!
Programs carried out on a disk. `run` gives what a program answers and the disk that it leaves,
`outcome` does so for a program that may stop early, and `emitted` for one that also goes on with
the state of an emitter. The lemmas here take a program apart; nothing else opens the monads.
-/

set_option autoImplicit false

namespace FlatWeights.Disk

variable {α β : Type}

/-- A tree with nothing in it, as seen from its root. -/
def blank : Disk := { tree := .empty, here := .standing [] }

/-- The storage of the files below the working directory, with buffers of the usual size. -/
abbrev belowHere : Storage (StateM Disk) := Storage.below "." Size.defaultBuffer

/-! ## Programs that answer -/

/-- What a program answers, and the disk that it leaves. -/
def run (d : Disk) (x : StateM Disk α) : α × Disk := StateT.run x d

variable (d : Disk)

/-- To answer leaves the disk as it is. -/
@[simp] theorem run_pure (a : α) : d.run (pure a) = (a, d) := rfl

/-- The second part of a program runs on the disk that the first part leaves, with its answer. -/
@[simp] theorem run_bind (x : StateM Disk α) (f : α → StateM Disk β) :
    d.run (x >>= f) = (d.run x).2.run (f (d.run x).1) := rfl

/-- To work on an answer leaves the disk alone. -/
@[simp] theorem run_map (x : StateM Disk α) (f : α → β) :
    d.run (f <$> x) = (f (d.run x).1, (d.run x).2) := rfl

/-- A program whose answer is known leaves some disk. -/
theorem exists_run_eq {d : Disk} {x : StateM Disk α} {a : α} (h : (d.run x).1 = a) :
    ∃ e, d.run x = (a, e) :=
  ⟨_, Prod.ext h rfl⟩

-- A request comes to what the disk does for it; to look something up changes nothing.

@[simp] theorem run_kind? (p : Path) : d.run (FileSystem.kind? p) = (d.kind? p, d) := rfl

@[simp] theorem run_open? (p : Path) : d.run (FileSystem.open? p) = (d.open? p, d) := rfl

@[simp] theorem run_create (p : Path) : d.run (FileSystem.create p) = d.create p := rfl

/-- A file is filled by the disk, which has no answer to it. -/
@[simp] theorem run_fill (p : Path) (content : Bytes) :
    d.run (FileSystem.fill p content) = ((), d.fill p content) := rfl

@[simp] theorem run_makeDir (p : Path) : d.run (FileSystem.makeDir p) = d.makeDir p := rfl

@[simp] theorem run_removeFile (p : Path) : d.run (FileSystem.removeFile p) = d.removeFile p := rfl

@[simp] theorem run_removeDir (p : Path) : d.run (FileSystem.removeDir p) = d.removeDir p := rfl

@[simp] theorem run_rename (source target : Path) :
    d.run (FileSystem.rename source target) = d.rename source target := rfl

/-- Something is there if it has a kind. -/
@[simp] theorem run_exists (p : Path) :
    d.run (FileSystem.exists p) = ((d.kind? p).isSome, d) := rfl

/-- A directory is there if that is the kind of what stands there. -/
@[simp] theorem run_isDir (p : Path) :
    d.run (FileSystem.isDir p) = (d.kind? p == some .directory, d) := rfl

/-! ## Programs that may stop early -/

/-- The result of a program or why it stopped, and the disk that it leaves. -/
def outcome (d : Disk) (x : Run (StateM Disk) α) : Except Stop α × Disk := d.run x.run

@[simp] theorem run_run (x : Run (StateM Disk) α) : d.run x.run = d.outcome x := rfl

/-- A program that answers at once comes to its end. -/
@[simp] theorem outcome_pure (a : α) : d.outcome (pure a) = (.ok a, d) := rfl

/-- A failure that is reported stops a program. -/
@[simp] theorem outcome_fail (failure : Failure) :
    d.outcome (Run.fail failure : Run (StateM Disk) α) = (.error (.failed failure), d) := rfl

/-- A program that cannot stop comes to its end. -/
@[simp] theorem outcome_always (x : StateM Disk α) :
    d.outcome (Run.always x) = (.ok (d.run x).1, (d.run x).2) := rfl

/-- A result that is known does not look at the disk. -/
@[simp] theorem outcome_mk (result : Except Stop α) :
    d.outcome (ExceptT.mk (pure result)) = (result, d) := rfl

/-- The second part of a program runs if the first one came to its end. -/
theorem outcome_bind (x : Run (StateM Disk) α) (f : α → Run (StateM Disk) β) :
    d.outcome (x >>= f) = match (d.outcome x).1 with
      | .ok a => (d.outcome x).2.outcome (f a)
      | .error stop => (.error stop, (d.outcome x).2) := by
  rw [outcome, ExceptT.run_bind, run_bind]
  cases hx : (d.outcome x).1 with
  | ok a => rw [outcome] at hx; rw [hx]; rfl
  | error stop => rw [outcome] at hx; rw [hx]; rfl

variable {d}

/-- Behind a first part that came to its end the second part goes on from there. -/
theorem outcome_bind_ok {e : Disk} {x : Run (StateM Disk) α} {a : α}
    (h : d.outcome x = (.ok a, e)) (f : α → Run (StateM Disk) β) :
    d.outcome (x >>= f) = e.outcome (f a) := by
  rw [outcome_bind, h]

/-- Where the first part stopped, the program has stopped. -/
theorem outcome_bind_error {e : Disk} {x : Run (StateM Disk) α} {stop : Stop}
    (h : d.outcome x = (.error stop, e)) (f : α → Run (StateM Disk) β) :
    d.outcome (x >>= f) = (.error stop, e) := by
  rw [outcome_bind, h]

/-- A program that came to its end had come to the end of its first part. -/
theorem outcome_bind_eq_ok_iff {e : Disk} {x : Run (StateM Disk) α}
    {f : α → Run (StateM Disk) β} {b : β} : d.outcome (x >>= f) = (.ok b, e) ↔
      ∃ a d', d.outcome x = (.ok a, d') ∧ d'.outcome (f a) = (.ok b, e) := by
  rw [outcome_bind]
  obtain ⟨result, d'⟩ := d.outcome x
  cases result with
  | ok a =>
    constructor
    · intro h
      exact ⟨a, d', rfl, h⟩
    · rintro ⟨a', d'', heq, h⟩
      cases heq
      exact h
  | error stop => simp

/-- A request that is refused stops a program with the failure that goes with it. -/
theorem outcome_require (granted : StateM Disk Bool) (failure : Failure) :
    d.outcome (Storage.require granted failure) =
      (if (d.run granted).1 then .ok () else .error (.failed failure), (d.run granted).2) := by
  rw [Storage.require, outcome_bind_ok (outcome_always d granted)]
  split <;> rfl

/-! ## Programs of an emitter -/

/-- The result of a program of an emitter or why it stopped, the emitter then, and the disk. -/
def emitted (d : Disk) (run : Emitter) (x : Emit (StateM Disk) α) :
    (Except Stop α × Emitter) × Disk :=
  d.run (StateT.run x.run run)

variable (d) (emitter : Emitter)

/-- To answer leaves the emitter and the disk as they are. -/
@[simp] theorem emitted_pure (a : α) : d.emitted emitter (pure a) = ((.ok a, emitter), d) := rfl

/-- A program of an emitter may stop; the state of the emitter stays what it is by then. -/
@[simp] theorem emitted_throw (stop : Stop) :
    d.emitted emitter (throw stop : Emit (StateM Disk) α) = ((.error stop, emitter), d) := rfl

/-- To look at the emitter changes nothing. -/
@[simp] theorem emitted_get :
    d.emitted emitter (getThe Emitter) = ((.ok emitter, emitter), d) := rfl

/-- A new state of the emitter does not touch the disk. -/
@[simp] theorem emitted_set (emitter' : Emitter) :
    d.emitted emitter (set emitter') = ((.ok (), emitter'), d) := rfl

/-- A change of the emitter does not touch the disk. -/
@[simp] theorem emitted_modify (f : Emitter → Emitter) :
    d.emitted emitter (modify f) = ((.ok (), f emitter), d) := rfl

/-- What a storage does is not noticed by the emitter, but for where it stops. -/
@[simp] theorem emitted_perform (x : Run (StateM Disk) α) :
    d.emitted emitter (Emitter.perform x) =
      (((d.outcome x).1, emitter), (d.outcome x).2) := rfl

/-- Where a program is attempted, its stop becomes an answer. -/
@[simp] theorem emitted_attempt (x : Run (StateM Disk) α) :
    d.emitted emitter (Emitter.attempt x) =
      ((.ok (d.outcome x).1, emitter), (d.outcome x).2) := rfl

/-- The second part runs if the first one came to its end, with the emitter and the disk of then. -/
theorem emitted_bind (x : Emit (StateM Disk) α) (f : α → Emit (StateM Disk) β) :
    d.emitted emitter (x >>= f) = match (d.emitted emitter x).1.1 with
      | .ok a => (d.emitted emitter x).2.emitted (d.emitted emitter x).1.2 (f a)
      | .error stop => ((.error stop, (d.emitted emitter x).1.2), (d.emitted emitter x).2) := by
  rw [emitted, ExceptT.run_bind, StateT.run_bind, run_bind]
  cases hx : (d.emitted emitter x).1.1 with
  | ok a => rw [emitted] at hx; rw [hx]; rfl
  | error stop => rw [emitted] at hx; rw [hx]; rfl

variable {d emitter}

/-- Behind a first part that came to its end the second part goes on from there. -/
theorem emitted_bind_ok {x : Emit (StateM Disk) α} {a : α} {emitter' : Emitter} {e : Disk}
    (h : d.emitted emitter x = ((.ok a, emitter'), e)) (f : α → Emit (StateM Disk) β) :
    d.emitted emitter (x >>= f) = e.emitted emitter' (f a) := by
  rw [emitted_bind, h]

/-- Where the first part stopped, the program has stopped. -/
theorem emitted_bind_error {x : Emit (StateM Disk) α} {stop : Stop} {emitter' : Emitter}
    {e : Disk} (h : d.emitted emitter x = ((.error stop, emitter'), e))
    (f : α → Emit (StateM Disk) β) :
    d.emitted emitter (x >>= f) = ((.error stop, emitter'), e) := by
  rw [emitted_bind, h]

/-- A program that came to its end had come to the end of its first part. -/
theorem emitted_bind_eq_ok_iff {x : Emit (StateM Disk) α} {f : α → Emit (StateM Disk) β} {b : β}
    {last : Emitter} {e : Disk} : d.emitted emitter (x >>= f) = ((.ok b, last), e) ↔
      ∃ a next d', d.emitted emitter x = ((.ok a, next), d') ∧
        d'.emitted next (f a) = ((.ok b, last), e) := by
  rw [emitted_bind]
  obtain ⟨⟨result, next⟩, d'⟩ := d.emitted emitter x
  cases result with
  | ok a =>
    constructor
    · intro h
      exact ⟨a, next, d', rfl, h⟩
    · rintro ⟨a, next, d'', heq, h⟩
      cases heq
      exact h
  | error stop => simp

/-- What a storage did to its end has left the emitter alone. -/
theorem emitted_perform_eq_ok_iff {x : Run (StateM Disk) α} {a : α} {next : Emitter} {e : Disk} :
    d.emitted emitter (Emitter.perform x) = ((.ok a, next), e) ↔
      d.outcome x = (.ok a, e) ∧ next = emitter := by
  rw [emitted_perform]
  obtain ⟨result, d'⟩ := d.outcome x
  simp only [Prod.mk.injEq]
  constructor
  · rintro ⟨⟨rfl, rfl⟩, rfl⟩
    exact ⟨⟨rfl, rfl⟩, rfl⟩
  · rintro ⟨⟨rfl, rfl⟩, rfl⟩
    exact ⟨⟨rfl, rfl⟩, rfl⟩

/-- The emitter goes on where the storage came to its end. -/
theorem emitted_perform_of_ok {x : Run (StateM Disk) α} {a : α} {e : Disk}
    (h : d.outcome x = (.ok a, e)) :
    d.emitted emitter (Emitter.perform x) = ((.ok a, emitter), e) := by
  rw [emitted_perform, h]

/-- The emitter stops where the storage stopped. -/
theorem emitted_perform_of_error {x : Run (StateM Disk) α} {stop : Stop} {e : Disk}
    (h : d.outcome x = (.error stop, e)) :
    d.emitted emitter (Emitter.perform x) = ((.error stop, emitter), e) := by
  rw [emitted_perform, h]

end FlatWeights.Disk
