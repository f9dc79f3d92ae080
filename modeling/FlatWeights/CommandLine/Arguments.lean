import FlatWeights.Config

/-!
The arguments of the command line. They are those of the program as a whole, the name of a command,
and the arguments of the command; `--config` and `--log-level` may stand in both places, where the
later place counts. An option is given at most once in each place.
-/

set_option autoImplicit false

namespace FlatWeights.CommandLine

/-- What may be given by name. -/
inductive Flag where
  | config
  | logLevel
  | onCollision
  | noMmap
  | quiet
deriving DecidableEq, Repr

namespace Flag

/-- The name of a flag after two dashes. -/
def long : Flag → String
  | config => "config"
  | logLevel => "log-level"
  | onCollision => "on-collision"
  | noMmap => "no-mmap"
  | quiet => "quiet"

/-- The letter of a flag after one dash, if it has one. -/
def short? : Flag → Option Char
  | config => some 'c'
  | quiet => some 'q'
  | logLevel | onCollision | noMmap => none

/-- The flag is followed by a value. -/
def takesValue : Flag → Bool
  | config | logLevel | onCollision => true
  | noMmap | quiet => false

/-- The value can be one of the flag: a path is not empty, and a policy is known. -/
def accepts (flag : Flag) (value : String) : Bool :=
  match flag with
  | config => value != ""
  | onCollision => (CollisionPolicy.parse value).toOption.isSome
  | logLevel | noMmap | quiet => true

end Flag

/-- What one place of the command line takes. -/
structure Place where
  flags : List Flag
  /-- The most words that it takes. -/
  words : Nat := 0
  /-- The words that end the place, since a command begins with them. -/
  commands : List String := []
deriving DecidableEq, Repr

namespace Place

/-- The arguments before the name of a command. -/
def general : Place where
  flags := [.config, .logLevel]
  commands := ["convert", "verify", "help"]

/-- The arguments of the command that converts: a checkpoint and a directory. -/
def ofConvert : Place where
  flags := general.flags ++ [.onCollision, .noMmap, .quiet]
  words := 2

/-- The arguments of the command that checks a directory. -/
def ofVerify : Place where
  flags := general.flags
  words := 1

end Place

/-- Why the arguments call for no command. -/
inductive UsageStop where
  /-- They cannot be understood. -/
  | misused
  /-- They ask how to use the program. -/
  | help
deriving DecidableEq, Repr

/-- What was given in one place: flags with their values, and words in order. -/
structure Given where
  flags : List (Flag × String) := []
  words : List String := []
deriving DecidableEq, Repr

namespace Given

/-- One more flag with its value; a flag without one has the empty value. -/
def addFlag (given : Given) (flag : Flag) (value : String) : Except UsageStop Given :=
  if (given.flags.lookup flag).isSome || !flag.accepts value then .error .misused
  else .ok { given with flags := given.flags ++ [(flag, value)] }

/-- One more word. Every word is a path, so none is empty. -/
def addWord (place : Place) (given : Given) (word : String) : Except UsageStop Given :=
  if word = "" ∨ place.words ≤ given.words.length then .error .misused
  else .ok { given with words := given.words ++ [word] }

/-- The flag was given. -/
def has (given : Given) (flag : Flag) : Bool := (given.flags.lookup flag).isSome

/-- A word begins like a flag, so it is not the value of one. -/
def looksLikeFlag (word : String) : Bool :=
  match word.toList with
  | '-' :: _ :: _ => true
  | _ => false

/-- The flags in the letters after one dash. The last one may still need a value. -/
def addLetters (place : Place) (given : Given) :
    List Char → Except UsageStop (Given × Option Flag)
  | [] => .ok (given, none)
  | letter :: more =>
    if letter = 'h' then .error .help
    else match place.flags.find? (fun flag => flag.short? == some letter) with
      | none => .error .misused
      | some flag =>
        if flag.takesValue then
          match more with
          | [] => .ok (given, some flag)
          | '=' :: value => (given.addFlag flag (String.ofList value)).map fun g => (g, none)
          | value => (given.addFlag flag (String.ofList value)).map fun g => (g, none)
        else do addLetters place (← given.addFlag flag "") more

/-- The flag whose name stands after two dashes, perhaps with a value after an equals sign. The
flag may still need a value. -/
def addName (place : Place) (given : Given) (text : List Char) :
    Except UsageStop (Given × Option Flag) :=
  let (name, value?) := match Text.splitOnce? '=' text with
    | some (name, value) => (name, some (String.ofList value))
    | none => (text, none)
  if name = "help".toList ∧ value? = none then .error .help
  else match place.flags.find? (fun flag => flag.long.toList == name), value? with
    | none, _ => .error .misused
    | some flag, some value =>
      if flag.takesValue then (given.addFlag flag value).map fun g => (g, none)
      else .error .misused
    | some flag, none =>
      if flag.takesValue then .ok (given, some flag)
      else (given.addFlag flag "").map fun g => (g, none)

/-- Read the arguments of one place. A word that is the name of a command ends them, and what
follows it is left; after two dashes everything is a word and no command. -/
def read (place : Place) (onlyWords : Bool) (given : Given) :
    List String → Except UsageStop (Given × List String)
  | [] => .ok (given, [])
  | arg :: rest =>
    if onlyWords then do read place true (← given.addWord place arg) rest
    else if arg = "--" then read place true given rest
    else if looksLikeFlag arg then do
      let flagRead ← match arg.toList with
        | '-' :: '-' :: name => addName place given name
        | letters => addLetters place given (letters.drop 1)
      match flagRead, rest with
      | (given, none), rest => read place false given rest
      | (_, some _), [] => .error .misused
      | (given, some flag), value :: rest =>
        if looksLikeFlag value then .error .misused
        else read place false (← given.addFlag flag value) rest
    else if place.commands.contains arg then .ok (given, arg :: rest)
    else do read place false (← given.addWord place arg) rest

end Given

/-- What the program is asked to do. -/
inductive Command where
  /-- Convert a checkpoint into a directory. -/
  | convert (checkpoint output : Path) (onCollision : Option CollisionPolicy) (noMmap : Bool)
  /-- Check a directory. -/
  | verify (output : Path)
deriving DecidableEq, Repr

/-- A command, and the file of its configuration. -/
structure Invocation where
  config : Option Path
  command : Command
deriving DecidableEq, Repr

namespace Invocation

/-- The command of a name, with its arguments. -/
def commandOf (name : String) (args : List String) : Except UsageStop (Given × Command) := do
  let (given, _) ← Given.read (if name = "convert" then .ofConvert else .ofVerify) false {} args
  match name, given.words with
  | "convert", [checkpoint, output] =>
    let onCollision := (given.flags.lookup .onCollision).bind fun text =>
      (CollisionPolicy.parse text).toOption
    return (given, .convert checkpoint output onCollision (given.has .noMmap))
  | "verify", [output] => return (given, .verify output)
  | _, _ => throw .misused

/-- What the arguments of the program ask for. Help is given on the program or on one of its
commands. -/
def ofArguments (args : List String) : Except UsageStop Invocation := do
  let (general, rest) ← Given.read .general false {} args
  match rest with
  | [] => throw .misused
  | "help" :: topics =>
    match topics with
    | [] => throw .help
    | [topic] => throw (if Place.general.commands.contains topic then .help else .misused)
    | _ => throw .misused
  | name :: args =>
    let (given, command) ← commandOf name args
    return ⟨(given.flags.lookup .config).or (general.flags.lookup .config), command⟩

end Invocation

end FlatWeights.CommandLine
