/-
# Planning rotations

A rotation from a distribution to the records of a table is planned and shown. The new
distribution keeps the version unless another is asked for, and is kept in a file if one
is named.
-/

import Vesting.Csv.File
import Vesting.Invocation
import Vesting.Program.Notes

namespace Vesting.Program

variable {m : Type → Type} [Monad m] [Storage m]

/-- The source of notes about this command. -/
def rotateSource : String := "rootlock_cli.commands.rotate"

def planLines (a : Amendment) (output : Option Path) : List String :=
  [s!"old_root: {toHex a.oldRoot}", s!"new_root: {toHex a.distribution.root}",
    s!"max_claim_amount: {a.distribution.maxClaim.toNat}",
    s!"max_escrow: {a.distribution.maxEscrows.toNat}", s!"added: {a.added.length}"] ++
  a.added.map (fun r => s!"  + {r.toHex}") ++
  [s!"removed: {a.removed.length}"] ++
  a.removed.map (fun r => s!"  - {r.toHex}") ++
  (output.map fun path => s!"tree: {path.toString}").toList

def planFields (a : Amendment) (output : Option Path) : Fields :=
  a.summary ++ (output.map fun path => ("out_path", Value.text path.toString)).toList

def rejectPlan (log : Log) : Refusal → ExceptT Failure m ExitStatus
  | .duplicateRoot root => do
    let message := s!"Rotation rejected: {(Refusal.duplicateRoot root).message}"
    log.note .warning rotateSource message
    complainAndFail message
  | refusal => complainAndFail s!"Error building new tree: {refusal.message}"

/-- Keep the distribution of a plan if a file is named. -/
def keepPlan (log : Log) (a : Amendment) : Option Path → ExceptT Failure m Unit
  | none => return ()
  | some path => keep log a.distribution path

def rotate (log : Log) (args : RotateArguments) : ExceptT Failure m ExitStatus := do
  let inputs ← refusable do
    let current ← Distribution.load (.ofString args.distribution)
    let new ← Csv.loadBatch (.ofString args.table)
    return (current, new)
  match inputs with
  | .error refusal => complainAndFail s!"Error loading inputs: {refusal.message}"
  | .ok (current, new) =>
    let version := (args.version.map .int).getD (Record.ofWord current.version)
    match ← refusable (planNoting log current new version) with
    | .error refusal => rejectPlan log refusal
    | .ok a =>
      let output := (nonempty args.output).map Path.ofString
      keepPlan log a output
      if args.json then printFields (planFields a output) else printLines (planLines a output)
      return .success

end Vesting.Program
