/-
# Running the program

A command line is read, the settings are loaded, the log is opened, and the command is
run. Whatever a command does not report itself is reported here, except for a log that
cannot be opened: that failure is left to the caller.
-/

import Vesting.Program.Configure
import Vesting.Program.Create
import Vesting.Program.Proof
import Vesting.Program.Rotate
import Vesting.Program.Sample
import Vesting.Program.Verify
import Vesting.Settings.Environment
import Vesting.Settings.File

namespace Vesting.Program

variable {m : Type → Type} [Monad m] [Storage m]

/-- The settings of a file as the environment overrides them, or those of the environment
alone. -/
def loadSettings (env : Environment) : Option String → ExceptT Failure m Settings
  | none => outcome (Settings.ofEnvironment env)
  | some path => do
    let s ← Settings.load (.ofString path)
    outcome (s.within env)

def command (log : Log) (s : Settings) : Command → ExceptT Failure m ExitStatus
  | .create args => create log s args
  | .proof args => showProof args
  | .verify args => verify log args
  | .audit args => audit log args
  | .rotate args => rotate log args
  | .sample args => sample log args
  | .settings args => configure s args

/-- Report a failure; in detail with its kind. -/
def reportFailure (debug : Bool) (failure : Failure) : ExceptT Failure m ExitStatus :=
  if debug then complainAndFail s!"Traceback: {failure.kind}: {failure.message}"
  else complainAndFail s!"Error: {failure.message}"

def invoke (env : Environment) (i : Invocation) : ExceptT Failure m ExitStatus := do
  match ← ExceptT.lift (loadSettings env i.settings : ExceptT Failure m Settings).run with
  | .error failure => complainAndFail s!"Error loading configuration: {failure.message}"
  | .ok s =>
    let log ← Log.start i.level s.log
    match ← ExceptT.lift (command log s i.command : ExceptT Failure m ExitStatus).run with
    | .ok status => return status
    | .error failure => reportFailure i.command.debug failure

def run (env : Environment) (args : List String) : ExceptT Failure m ExitStatus :=
  match Invocation.read args with
  | .run invocation => invoke env invocation
  | .usage text => do
    ExceptT.lift (Storage.print text)
    return .success
  | .version => do
    Storage.printLine s!"{Invocation.program} {Invocation.programVersion}"
    return .success
  | .lacking usage => do
    ExceptT.lift (Storage.print usage)
    return .failure
  | .misuse usage message => do
    ExceptT.lift (Storage.complain usage)
    Storage.complainLine message
    return .misuse

end Vesting.Program
