/-
# Files of settings

A file with the default settings is created where there is none, or the settings in use
are shown.
-/

import Vesting.Invocation
import Vesting.Program.Outcome

namespace Vesting.Program

variable {m : Type → Type} [Monad m] [Storage m]

/-- Create a file with the default settings. -/
def createSettings (path : Path) : ExceptT Failure m ExitStatus := do
  match ← (Storage.kind? path : m (Option FileKind)) with
  | some _ => complainAndFail s!"Error: Config file already exists: {path.toString}"
  | none =>
    let written ← (Storage.write path (Text.toUtf8 Settings.template) : m (Except FileFault Unit))
    outcome (Storage.atPath path.toString written)
    printLines [
      s!"Created configuration file: {path.toString}", "",
      "Edit this file to configure your settings.",
      "You can also use environment variables (ROOTLOCK_* prefix)."]
    return .success

def settingsUsage : List String := [
  "Usage: rootlock config [--init|--show]", "  --init  Create a template configuration file",
  "  --show  Show current configuration"]

def configure (s : Settings) (args : SettingsArguments) : ExceptT Failure m ExitStatus := do
  if args.create then createSettings (.ofString args.path)
  else if args.display then
    printFields s.fields
    return .success
  else
    printLines settingsUsage
    return .success

end Vesting.Program
