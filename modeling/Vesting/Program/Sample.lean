/-
# Writing sample records

Sample records are written to a table. The same seed gives the same records; without a
seed they are left to chance.
-/

import Vesting.Invocation
import Vesting.Program.Create
import Vesting.Sample.File

namespace Vesting.Program

variable {m : Type → Type} [Monad m] [Storage m]

/-- The seed that is asked for, or one by chance. -/
def seedFor : Option Int → ExceptT Failure m Int
  | some seed => return seed
  | none => do
    let seed ← (Storage.chance : m Nat)
    return (seed : Int)

def sample (log : Log) (args : SampleArguments) : ExceptT Failure m ExitStatus := do
  if args.count ≤ 0 then complainAndFail "Error: --num-nodes must be positive"
  else
    let path := Path.ofString args.output
    let seed ← seedFor args.seed
    Sample.save args.count seed path
    log.note .info createSource s!"Generated {args.count} test records"
    Storage.printLine s!"Wrote {args.count} records to {path.toString}"
    return .success

end Vesting.Program
