/-
# Outcomes of commands

A command ends with a status, or with a failure that the program reports. Most commands
report refusals themselves, in words or as JSON.
-/

import Vesting.Json.Printer
import Vesting.Report
import Vesting.Storage

namespace Vesting.Program

/-- How the program ends. -/
inductive ExitStatus
  | success
  | failure
  /-- Something was checked and did not hold. -/
  | mismatch
  | misuse
  deriving DecidableEq

/-- The number that stands for a status. -/
def ExitStatus.code : ExitStatus → Nat
  | success => 0
  | failure => 1
  | mismatch => 2
  | misuse => 2

variable {m : Type → Type} [Monad m] [Storage m]

/-- Run something and hand over a refusal; other failures go on. -/
def refusable {α : Type} (action : ExceptT Failure m α) : ExceptT Failure m (Except Refusal α) :=
  ExceptT.mk do
    match ← action.run with
    | .ok a => return .ok (.ok a)
    | .error (.refused refusal) => return .ok (.error refusal)
    | .error failure => return .error failure

def outcome {α : Type} (r : Except Failure α) : ExceptT Failure m α := ExceptT.mk (pure r)

def printFields (fields : Fields) : ExceptT Failure m Unit :=
  Storage.printLine ((Value.object fields).toJson .report)

def printLines (lines : List String) : ExceptT Failure m Unit := lines.forM Storage.printLine

def complainAndFail (message : String) : ExceptT Failure m ExitStatus := do
  Storage.complainLine message
  return .failure

/-- Report what was refused, as JSON or in words that say what was tried. -/
def reportRefusal (tried : String) (refusal : Refusal) (json : Bool) :
    ExceptT Failure m ExitStatus := do
  if json then
    printFields [("ok", .bool false), ("error", .object refusal.toReport.fields)]
    return .failure
  else complainAndFail s!"Error {tried}: {refusal.message}"

/-- The text of an argument, unless it is empty. -/
def nonempty (arg : Option String) : Option String := arg.filter (!·.isEmpty)

end Vesting.Program
