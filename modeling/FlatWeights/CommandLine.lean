import FlatWeights.CommandLine.Arguments
import FlatWeights.Config.Load
import FlatWeights.Converter

/-!
The program as a whole: from its arguments and its environment to what it prints and how it ends.
Arguments are understood before anything is touched; the configuration is settled next, field by
field, and only a valid one is acted on.
-/

set_option autoImplicit false

namespace FlatWeights.CommandLine

/-- How the program ends: its exit status, what it prints, and the failure that it reports. -/
structure Ending where
  exit : Nat
  output : String
  failure : Option Failure := none
deriving DecidableEq, Repr

/-- How to use the program. -/
def usage : String :=
  "Usage: weights-convert [OPTIONS] <COMMAND>\n\n"
    ++ "Commands:\n"
    ++ "  convert <CHECKPOINT> <OUTPUT_DIR> [--on-collision error|warn] [--no-mmap] [-q|--quiet]\n"
    ++ "  verify <OUTPUT_DIR>\n\n"
    ++ "Options:\n"
    ++ "  -c, --config <CONFIG>\n"
    ++ "      --log-level <LOG_LEVEL>\n"

/-- The configuration with what the command sets. -/
def Command.configure (config : Config) : Command → Config
  | .convert _ output onCollision noMmap =>
    { config with
      output := { config.output with
        dir := output
        onCollision := onCollision.getD config.output.onCollision }
      storage := { config.storage with useMmap := config.storage.useMmap && !noMmap } }
  | .verify output => { config with output := { config.output with dir := output } }

/-- What is printed after a conversion. -/
def convertedText (report : ConversionReport) (output : Path) : String :=
  "Converted " ++ report.tensorsRead.repr ++ " tensors (" ++ report.tensorsDropped.repr
    ++ " dropped) into " ++ report.filesWritten.repr ++ " files, " ++ report.bytesWritten.repr
    ++ " bytes in " ++ output ++ "\n"
    ++ if 0 < report.overwritten then
        "Replaced " ++ report.overwritten.repr ++ " existing files\n"
      else ""

/-- What is printed after a check. -/
def verifiedText (report : VerifyReport) : String :=
  report.files.length.repr ++ " files OK (" ++ report.payloadBytes.repr ++ " payload bytes)\n"

variable {m : Type → Type} [Monad m] [FileSystem m]

/-- Do what was asked for; the result is what is printed. -/
def Invocation.perform (invocation : Invocation) (env : Environment) : Run m String := do
  let config ← Config.load invocation.config env
  let converter ← Converter.ofConfig (invocation.command.configure config)
  match invocation.command with
  | .convert checkpoint output _ _ =>
    return convertedText (← converter.convertFile checkpoint) output
  | .verify _ => return verifiedText (← converter.verify)

/-- Run the program. -/
def run (args : List String) (env : Environment) : m Ending := do
  match Invocation.ofArguments args with
  | .error .help => return { exit := 0, output := usage }
  | .error .misused => return { exit := 2, output := "" }
  | .ok invocation =>
    match ← (invocation.perform env).run with
    | .ok text => return { exit := 0, output := text }
    | .error (.failed failure) => return { exit := 1, output := "", failure := some failure }
    | .error .overflow => return { exit := 101, output := "" }

end FlatWeights.CommandLine
