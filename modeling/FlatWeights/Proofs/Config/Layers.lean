import FlatWeights.CommandLine
import FlatWeights.Proofs.Disk.Run
import Mathlib.Control.Monad.Basic

/-!
The layers of a configuration. A document, the environment and a command each say something of some
of the fields (`Layer`); the configuration of a run takes every field from the uppermost layer that
says something of it, and from the defaults where none does. What one layer says of a field has no
bearing on the others: a variable that does not parse could as well not be set. The document has to
be valid by itself and the configuration as a whole once more, and until both are known nothing is
touched. Main statement: `run_layered`.
-/

set_option autoImplicit false

namespace FlatWeights

open Toml (Value Entries)

/-- What one source says of the fields of a configuration. -/
structure Layer where
  bufferSize : Option Nat := none
  useMmap : Option Bool := none
  dir : Option Path := none
  atomicWrites : Option Bool := none
  onCollision : Option CollisionPolicy := none
  blockLabel : Option String := none
  strip : Option String := none
  overrides : Option (SortedMap String) := none
deriving DecidableEq, Repr

namespace Layer

/-- The upper layer, and the lower one where the upper says nothing. -/
def onto (upper lower : Layer) : Layer where
  bufferSize := upper.bufferSize.or lower.bufferSize
  useMmap := upper.useMmap.or lower.useMmap
  dir := upper.dir.or lower.dir
  atomicWrites := upper.atomicWrites.or lower.atomicWrites
  onCollision := upper.onCollision.or lower.onCollision
  blockLabel := upper.blockLabel.or lower.blockLabel
  strip := upper.strip.or lower.strip
  overrides := upper.overrides.or lower.overrides

/-- The configuration of a layer, with the defaults where it says nothing. -/
def config (layer : Layer) : Config where
  storage := {
    bufferSize := layer.bufferSize.getD 1048576
    useMmap := layer.useMmap.getD true }
  output := {
    dir := layer.dir.getD "./weights"
    atomicWrites := layer.atomicWrites.getD true
    onCollision := layer.onCollision.getD .error }
  naming := {
    blockLabel := layer.blockLabel.getD "h"
    strip := layer.strip
    overrides := layer.overrides.getD .empty }

/-! ## What a document says -/

/-- The fields of a section; one that is missing has none. -/
def fields? (entries : Entries) (title : String) : Option Config.Fields :=
  (entries.find? title).elim (some (.named [])) Config.Fields.of?

/-- What a section says of a field, if that is understood. -/
def said? {α : Type} (fields : Config.Fields) (name : String) (position : Nat)
    (read : Value → Option α) : Option (Option α) :=
  (fields.find? name position).elim (some none) fun value => (read value).map some

/-- What a document says, if every field that it gives is understood. -/
def ofDocument? (entries : Entries) : Option Layer := do
  let storage ← fields? entries "storage"
  let bufferSize ← said? storage "buffer_size" 0 Config.size?
  let useMmap ← said? storage "use_mmap" 1 Config.boolean?
  let output ← fields? entries "output"
  let dir ← said? output "dir" 0 Config.string?
  let atomicWrites ← said? output "atomic_writes" 1 Config.boolean?
  let onCollision ← said? output "on_collision" 2 Config.policy?
  let naming ← fields? entries "naming"
  let blockLabel ← said? naming "block_prefix" 0 Config.string?
  let strip ← said? naming "strip_prefix" 1 Config.string?
  let overrides ← said? naming "map" 2 Config.stringMap?
  return { bufferSize, useMmap, dir, atomicWrites, onCollision, blockLabel, strip, overrides }

section Congruence

variable {α β γ δ : Type} {g : β → Option γ} {k : δ → γ}

/-- Two readers that begin alike are compared by what follows. -/
theorem bind_map_congr (x : Option α) {f : α → Option β} {h : α → Option δ}
    (hrest : ∀ a, f a >>= g = (h a).map k) : (x >>= f) >>= g = (x >>= h).map k := by
  cases x with
  | none => rfl
  | some a => exact hrest a

variable (fields : Config.Fields) (name : String) (position : Nat)

/-- A field has its default where nothing is said of it. -/
theorem get_map_congr (read : Value → Option α) (default : α) {f : α → Option β}
    {h : Option α → Option δ} (hrest : ∀ a, f (a.getD default) >>= g = (h a).map k) :
    (fields.get name position read default >>= f) >>= g =
      (said? fields name position read >>= h).map k := by
  have hget : fields.get name position read default =
      (said? fields name position read).map (·.getD default) := by
    rw [Config.Fields.get, said?]
    cases fields.find? name position with
    | none => rfl
    | some value =>
      change read value = ((read value).map some).map (·.getD default)
      cases read value <;> rfl
  rw [hget]
  cases said? fields name position read with
  | none => rfl
  | some a => exact hrest a

/-- What is said of an optional field is the field. -/
theorem get_some_map_congr (read : Value → Option α) {f : Option α → Option β}
    {h : Option α → Option δ} (hrest : ∀ a, f a >>= g = (h a).map k) :
    (fields.get name position (fun v => (read v).map some) none >>= f) >>= g =
      (said? fields name position read >>= h).map k := by
  have hget : fields.get name position (fun v => (read v).map some) none =
      said? fields name position read := by
    rw [Config.Fields.get, said?]
    cases fields.find? name position <;> rfl
  rw [hget]
  exact bind_map_congr _ hrest

end Congruence

/-- A section that is missing is read like one without fields. -/
theorem eq_bind_fields? {α : Type} (entries : Entries) (title : String)
    {read : Config.Fields → Option α} {default : α} (h : read (.named []) = some default) :
    Config.section? entries title read default = fields? entries title >>= read := by
  rw [Config.section?, fields?]
  cases entries.find? title with
  | none => exact h.symm
  | some content => rfl

/-- A document gives the configuration of its layer. -/
theorem ofEntries?_eq (entries : Entries) :
    Config.ofEntries? entries = (ofDocument? entries).map config := by
  have hstorage : Config.storage? (.named []) = some {} := rfl
  have houtput : Config.output? (.named []) = some {} := rfl
  have hnaming : Config.naming? (.named []) = some {} := rfl
  rw [Config.ofEntries?, eq_bind_fields? entries _ hstorage, eq_bind_fields? entries _ houtput,
    eq_bind_fields? entries _ hnaming, ofDocument?]
  -- the fields are read in the same order on both sides, with the default where there is none
  refine bind_map_congr _ fun storage => ?_
  refine get_map_congr storage "buffer_size" 0 Config.size? _ fun bufferSize => ?_
  refine get_map_congr storage "use_mmap" 1 Config.boolean? _ fun useMmap => ?_
  refine bind_map_congr _ fun output => ?_
  refine get_map_congr output "dir" 0 Config.string? _ fun dir => ?_
  refine get_map_congr output "atomic_writes" 1 Config.boolean? _ fun atomicWrites => ?_
  refine get_map_congr output "on_collision" 2 Config.policy? _ fun onCollision => ?_
  refine bind_map_congr _ fun naming => ?_
  refine get_map_congr naming "block_prefix" 0 Config.string? _ fun blockLabel => ?_
  refine get_some_map_congr naming "strip_prefix" 1 Config.string? fun strip => ?_
  refine get_map_congr naming "map" 2 Config.stringMap? _ fun overrides => ?_
  rfl

/-! ## What the environment and a command say -/

/-- What the environment says. No variable is for the new names of fields. -/
def ofEnvironment (env : Environment) : Layer where
  bufferSize := env.setting? "WGT_STORAGE_BUFFER_SIZE" Environment.size?
  useMmap := env.setting? "WGT_STORAGE_USE_MMAP" Environment.boolean?
  dir := env.setting? "WGT_OUTPUT_DIR" some
  atomicWrites := env.setting? "WGT_OUTPUT_ATOMIC_WRITES" Environment.boolean?
  onCollision := env.setting? "WGT_OUTPUT_ON_COLLISION" Environment.policy?
  blockLabel := env.setting? "WGT_NAMING_BLOCK_PREFIX" some
  strip := env.setting? "WGT_NAMING_STRIP_PREFIX" some

/-- What a command says: always the output directory, and for a conversion what its options say. -/
def ofCommand : CommandLine.Command → Layer
  | .convert _ output onCollision noMmap =>
    { dir := some output, onCollision, useMmap := if noMmap then some false else none }
  | .verify output => { dir := some output }

theorem getD_or {α : Type} (upper lower : Option α) (default : α) :
    (upper.or lower).getD default = upper.getD (lower.getD default) := by
  cases upper <;> rfl

/-- The environment is a layer over the configuration of another one. -/
theorem withEnvironment_config (env : Environment) (layer : Layer) :
    layer.config.withEnvironment env = ((ofEnvironment env).onto layer).config := by
  have hstrip : (env.setting? "WGT_NAMING_STRIP_PREFIX" fun text => some (some text)).getD
      layer.strip = (env.setting? "WGT_NAMING_STRIP_PREFIX" some).or layer.strip := by
    rw [Environment.setting?, Environment.setting?]
    cases env.lookup "WGT_NAMING_STRIP_PREFIX" <;> rfl
  simp only [Config.withEnvironment, config, onto, ofEnvironment, getD_or, hstrip, Option.none_or]

/-- A command is a layer over the configuration of another one. -/
theorem configure_config (command : CommandLine.Command) (layer : Layer) :
    command.configure layer.config = ((ofCommand command).onto layer).config := by
  cases command with
  | convert checkpoint output onCollision noMmap =>
    -- a command can only turn the mapping off, so without its option it says nothing
    have hmmap : (layer.useMmap.getD true && !noMmap) =
        ((if noMmap then some false else none : Option Bool).or layer.useMmap).getD true := by
      cases noMmap <;> simp
    simp only [CommandLine.Command.configure, config, onto, ofCommand, getD_or, hmmap,
      Option.none_or]
    rfl
  | verify output => rfl

end Layer

/-! ## Variables that do not parse -/

namespace Environment

/-- The text is one that the variable can have. Variables for texts can have any. -/
def parses (name text : String) : Bool :=
  if name = "WGT_STORAGE_BUFFER_SIZE" then (size? text).isSome
  else if name = "WGT_STORAGE_USE_MMAP" ∨ name = "WGT_OUTPUT_ATOMIC_WRITES" then
    (boolean? text).isSome
  else if name = "WGT_OUTPUT_ON_COLLISION" then (policy? text).isSome
  else true

/-- The environment in which a variable is not set. -/
def unset (env : Environment) (name : String) : Environment := env.filter (·.1 ≠ name)

variable {env : Environment} {name text : String}

/-- Unsetting a variable leaves the others. -/
theorem lookup_unset_of_ne {other : String} (h : other ≠ name) :
    (env.unset name).lookup other = env.lookup other := by
  induction env with
  | nil => rfl
  | cons e env ih =>
    rw [unset, List.filter_cons]
    split
    · rw [List.lookup_cons, List.lookup_cons, ← ih]
      rfl
    · rename_i hname
      have hname : e.1 = name := by simpa using hname
      have hother : (other == e.1) = false := by simpa [hname] using h
      rw [List.lookup_cons, hother]
      exact ih

theorem lookup_unset_self : (env.unset name).lookup name = none := by
  rw [List.lookup_eq_none_iff]
  intro e he
  have hne : e.1 ≠ name := by simpa using (List.mem_filter.1 he).2
  simpa using Ne.symm hne

/-- A variable that does not parse sets nothing, and no other variable is read in its place. -/
theorem setting?_unset {α : Type} (hset : env.lookup name = some text) (other : String)
    (read : String → Option α) (h : other = name → read text = none) :
    (env.unset name).setting? other read = env.setting? other read := by
  rw [setting?, setting?]
  by_cases hother : other = name
  · rw [hother, lookup_unset_self, hset, Option.bind_none, Option.bind_some, h hother]
  · rw [lookup_unset_of_ne hother]

/-- What does not parse might as well not be set. -/
theorem ofEnvironment_unset (hset : env.lookup name = some text)
    (hparses : parses name text = false) :
    Layer.ofEnvironment (env.unset name) = Layer.ofEnvironment env := by
  have hsize := setting?_unset hset "WGT_STORAGE_BUFFER_SIZE" size? (by
    rintro rfl
    simpa [parses] using hparses)
  have hmmap := setting?_unset hset "WGT_STORAGE_USE_MMAP" boolean? (by
    rintro rfl
    simpa [parses] using hparses)
  have hatomic := setting?_unset hset "WGT_OUTPUT_ATOMIC_WRITES" boolean? (by
    rintro rfl
    simpa [parses] using hparses)
  have hpolicy := setting?_unset hset "WGT_OUTPUT_ON_COLLISION" policy? (by
    rintro rfl
    simpa [parses] using hparses)
  -- A variable for a text parses whatever its value, so it is another one that does not.
  have hdir := setting?_unset hset "WGT_OUTPUT_DIR" some (by
    rintro rfl
    simp [parses] at hparses)
  have hlabel := setting?_unset hset "WGT_NAMING_BLOCK_PREFIX" some (by
    rintro rfl
    simp [parses] at hparses)
  have hstrip := setting?_unset hset "WGT_NAMING_STRIP_PREFIX" some (by
    rintro rfl
    simp [parses] at hparses)
  simp only [Layer.ofEnvironment, hsize, hmmap, hatomic, hpolicy, hdir, hlabel, hstrip]

end Environment

/-! ## The configuration of a run -/

namespace Disk

/-- What a text says, if it is understood and valid by itself. -/
def textLayer (text : String) : Except ConfigFault Layer :=
  ((Toml.read? text).bind Layer.ofDocument?).elim (.error .notUnderstood) fun layer =>
    layer.config.fault?.elim (.ok layer) .error

/-- What the file of a configuration says, if it can be read, is understood and is valid by itself.
Where no file is named, nothing is said. -/
def fileLayer (d : Disk) : Option Path → Except ConfigFault Layer
  | none => .ok {}
  | some path =>
    match d.open? path with
    | none | some .directory => .error (.unreadable path)
    | some (.file content) =>
      (String.fromUTF8? ⟨content.toArray⟩).elim (.error (.unreadable path)) textLayer

/-- The configuration of a run, if it is valid: what the command says, over what the environment
says, over what the file says, over the defaults. -/
def configured (d : Disk) (invocation : CommandLine.Invocation) (env : Environment) :
    Except ConfigFault Config :=
  (d.fileLayer invocation.config).bind fun file =>
    let config := ((Layer.ofCommand invocation.command).onto
      ((Layer.ofEnvironment env).onto file)).config
    config.fault?.elim (.ok config) .error

variable {d : Disk}

/-- A text gives the configuration of its layer, or its fault. -/
theorem outcome_parse (text : String) :
    (d.outcome do
      let config ← ExceptT.mk (pure (Config.parse text))
      ExceptT.mk (pure config.validate)
      return config) =
    (match textLayer text with
      | .ok layer => .ok layer.config
      | .error fault => .error (.failed (.config fault)), d) := by
  rw [outcome_bind, outcome_mk, Config.parse, textLayer]
  cases Toml.read? text with
  | none => rfl
  | some entries =>
    simp only [Option.bind_some, Layer.ofEntries?_eq]
    cases Layer.ofDocument? entries with
    | none => rfl
    | some layer =>
      simp only [Option.map_some, Option.elim_some]
      rw [outcome_bind, outcome_mk, Config.validate]
      cases layer.config.fault? <;> rfl

/-- So does the file at a path. -/
theorem outcome_ofFile (path : Path) : d.outcome (Config.ofFile path) =
    (match d.fileLayer (some path) with
      | .ok layer => .ok layer.config
      | .error fault => .error (.failed (.config fault)), d) := by
  rw [Config.ofFile, outcome_bind_ok (outcome_always d _), run_open?, fileLayer]
  cases d.open? path with
  | none => rfl
  | some opened =>
    cases opened with
    | directory => rfl
    | file content =>
      dsimp only
      cases String.fromUTF8? ⟨content.toArray⟩ with
      | none => rfl
      | some text => exact outcome_parse text

/-- The environment lies on top of the file, if there is one. -/
theorem outcome_load (path? : Option Path) (env : Environment) :
    d.outcome (Config.load path? env) =
      (match d.fileLayer path? with
        | .ok file => .ok ((Layer.ofEnvironment env).onto file).config
        | .error fault => .error (.failed (.config fault)), d) := by
  cases path? with
  | none => exact congrArg (fun c => (Except.ok c, d)) (Layer.withEnvironment_config env {})
  | some path =>
    rw [Config.load, outcome_bind, outcome_ofFile]
    cases d.fileLayer (some path) with
    | error fault => rfl
    | ok file => exact congrArg (fun c => (Except.ok c, d)) (Layer.withEnvironment_config env file)

end Disk

namespace CommandLine

variable {m : Type → Type} [Monad m] [FileSystem m]

/-- What a command does with a converter; the result is what is printed. -/
def Command.carryOut (converter : Converter m) : Command → Run m String
  | .convert checkpoint output _ _ =>
    return convertedText (← converter.convertFile checkpoint) output
  | .verify _ => return verifiedText (← converter.verify)

/-- How the program ends with a result. -/
def Ending.ofResult : Except Stop String → Ending
  | .ok text => { exit := 0, output := text }
  | .error (.failed failure) => { exit := 1, output := "", failure := some failure }
  | .error .overflow => { exit := 101, output := "" }

end CommandLine

namespace Disk

open CommandLine

variable {d : Disk}

/-- A configuration that is valid becomes that of a converter; one that is not ends the run before
anything is asked of the file system. -/
theorem outcome_ofConfig_bind {α : Type} (config : Config)
    (f : Converter (StateM Disk) → Run (StateM Disk) α) :
    d.outcome (Converter.ofConfig config >>= f) =
      match config.fault? with
      | none => d.outcome do f ⟨config, ← Storage.openBelow "." config.storage.bufferSize⟩
      | some fault => (.error (.failed (.config fault)), d) := by
  rw [Converter.ofConfig, Config.validate, outcome_bind, outcome_bind]
  cases config.fault? with
  | some fault => rfl
  | none =>
    change _ = d.outcome (Storage.openBelow "." config.storage.bufferSize >>= fun storage =>
      f ⟨config, storage⟩)
    rw [outcome_bind, outcome_mk]
    dsimp only
    rw [outcome_bind]
    generalize d.outcome (Storage.openBelow "." config.storage.bufferSize) = opened
    obtain ⟨result, e⟩ := opened
    cases result <;> rfl

theorem outcome_perform (invocation : Invocation) (env : Environment) :
    d.outcome (invocation.perform env) =
      match d.configured invocation env with
      | .ok config => d.outcome do
          invocation.command.carryOut ⟨config, ← Storage.openBelow "." config.storage.bufferSize⟩
      | .error fault => (.error (.failed (.config fault)), d) := by
  -- every command loads the settings, makes a converter and is then carried out
  have hperform : (invocation.perform env : Run (StateM Disk) String) =
      Config.load invocation.config env >>= fun config =>
        Converter.ofConfig (invocation.command.configure config) >>=
          invocation.command.carryOut := by
    obtain ⟨path?, command⟩ := invocation
    cases command <;> rfl
  rw [hperform, outcome_bind, outcome_load, configured]
  cases d.fileLayer invocation.config with
  | error fault => rfl
  | ok file =>
    dsimp only [Except.bind]
    rw [Layer.configure_config, outcome_ofConfig_bind]
    generalize ((Layer.ofCommand invocation.command).onto
      ((Layer.ofEnvironment env).onto file)).config = config
    cases config.fault? <;> rfl

/-- A variable whose text is not one of its type might as well be unset. -/
theorem configured_unset {name text : String} {env : Environment}
    (hset : env.lookup name = some text)
    (hparses : Environment.parses name text = false) (invocation : Invocation) :
    d.configured invocation (env.unset name) = d.configured invocation env := by
  rw [configured, configured, Environment.ofEnvironment_unset hset hparses]

/-- What the command line does depends on the configuration of its layers. -/
theorem run_of_invocation {args : List String} {invocation : Invocation}
    (h : Invocation.ofArguments args = .ok invocation) (env : Environment) :
    d.run (CommandLine.run args env) =
      match d.configured invocation env with
      | .ok config =>
        let (result, e) := d.outcome do
          invocation.command.carryOut ⟨config, ← Storage.openBelow "." config.storage.bufferSize⟩
        (.ofResult result, e)
      | .error fault => ({ exit := 1, output := "", failure := some (.config fault) }, d) := by
  -- arguments that are accepted lead to the command, whose result is printed
  have hrun : d.run (CommandLine.run args env) =
      (.ofResult (d.outcome (invocation.perform env)).1,
        (d.outcome (invocation.perform env)).2) := by
    rw [CommandLine.run, h]
    simp only [run_bind, run_run]
    generalize d.outcome (invocation.perform env) = performed
    obtain ⟨result, e⟩ := performed
    cases result with
    | ok text => rfl
    | error stop => cases stop <;> rfl
  rw [hrun, outcome_perform]
  cases d.configured invocation env <;> rfl

/-- **Every field of the configuration is settled by the uppermost layer that says something of
it**: the command, the environment, the file, the defaults. A run does what its command does with
that configuration; if the file is not understood or not valid by itself, or the configuration is
not valid, the run fails for that reason and leaves the disk as it was. A variable that does not
parse has no bearing on any of this. -/
theorem run_layered {args : List String} {invocation : Invocation}
    (h : Invocation.ofArguments args = .ok invocation) (env : Environment) (d : Disk) :
    (d.run (CommandLine.run args env) =
      match d.configured invocation env with
      | .ok config =>
        let (result, e) := d.outcome do
          invocation.command.carryOut ⟨config, ← Storage.openBelow "." config.storage.bufferSize⟩
        (.ofResult result, e)
      | .error fault => ({ exit := 1, output := "", failure := some (.config fault) }, d)) ∧
    ∀ name text, env.lookup name = some text → Environment.parses name text = false →
      d.run (CommandLine.run args (env.unset name)) = d.run (CommandLine.run args env) := by
  refine ⟨run_of_invocation h env, fun name text hset hparses => ?_⟩
  rw [run_of_invocation h, run_of_invocation h, configured_unset hset hparses]

/-! ### A file, an environment and a command that disagree -/

/-- A disk with a file that sets two fields. -/
def withSettings : Disk :=
  { blank with tree := FileTree.empty.insert ["c.toml"] (.file
      "[storage]\nbuffer_size = 8\n[naming]\nblock_prefix = 'layer'\n".toUTF8.toList) }

/-- An environment with a variable that does not parse. -/
def assignments : Environment :=
  [("WGT_STORAGE_BUFFER_SIZE", "lots"), ("WGT_OUTPUT_DIR", "elsewhere"),
    ("WGT_OUTPUT_ON_COLLISION", "WARN")]

/-- The conversion of a checkpoint without mapping it into memory. -/
def unmapped : Invocation := ⟨some "c.toml", .convert "in" "out" none true⟩

/-- Four layers that disagree, and a variable that holds no number. -/
theorem run_layered_disagreeing :
    Invocation.ofArguments ["-c", "c.toml", "convert", "in", "out", "--no-mmap"] = .ok unmapped ∧
      withSettings.configured unmapped assignments =
        .ok ⟨⟨8, false⟩, ⟨"out", true, .warn⟩, ⟨"layer", none, .empty⟩⟩ ∧
      assignments.lookup "WGT_STORAGE_BUFFER_SIZE" = some "lots" ∧
      Environment.parses "WGT_STORAGE_BUFFER_SIZE" "lots" = false ∧
      (withSettings.run (CommandLine.run ["-c", "c.toml", "convert", "in", "out", "--no-mmap"]
        (assignments.unset "WGT_STORAGE_BUFFER_SIZE"))).1 =
          { exit := 1, output := "", failure := some (.storeOpen "in" .cannotReadCheckpoint) } := by
  have hargs : Invocation.ofArguments ["-c", "c.toml", "convert", "in", "out", "--no-mmap"] =
      .ok unmapped := by decide +kernel
  have hconfigured : withSettings.configured unmapped assignments =
      .ok ⟨⟨8, false⟩, ⟨"out", true, .warn⟩, ⟨"layer", none, .empty⟩⟩ := by decide +kernel
  have hparses : Environment.parses "WGT_STORAGE_BUFFER_SIZE" "lots" = false := by decide +kernel
  have hrun := run_layered hargs assignments withSettings
  rw [hconfigured] at hrun
  refine ⟨hargs, hconfigured, rfl, hparses, ?_⟩
  rw [hrun.2 _ _ rfl hparses, hrun.1]
  decide +kernel

end Disk

end FlatWeights
