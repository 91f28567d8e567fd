/-
# Files of sample records

Sample records are written to a table, once all of them have been made.
-/

import Vesting.Csv.File
import Vesting.Sample

namespace Vesting.Sample

variable {m : Type → Type} [Monad m] [Storage m]

/-- Keep sample records for a seed in the table file at a path. -/
def save (count seed : Int) (path : Path) : ExceptT Failure m Unit := do
  let records ← ExceptT.mk (pure ((records count seed).mapError .rejected))
  Csv.save records path

end Vesting.Sample
