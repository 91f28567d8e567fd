/-
# Files of records

Records are exchanged as tables with one row a record.
-/

import Vesting.Csv.Records
import Vesting.Storage

namespace Vesting.Csv

variable {m : Type → Type} [Monad m] [Storage m]

/-- The content of the table file at a path, read as `read` says. -/
def loadWith (read : String → Bytes → Except Failure (List Record)) (path : Path) :
    ExceptT Failure m (List Record) := do
  match ← Storage.load path with
  | none => throw (.refused (notFound path.toString))
  | some content => ExceptT.mk (pure (read path.toString content))

/-- The records of the table file at a path. -/
def load (path : Path) : ExceptT Failure m (List Record) := loadWith recordsOfFile path

/-- The records of the table file at a path, checked as a batch. -/
def loadBatch (path : Path) : ExceptT Failure m (List Record) := loadWith batchOfFile path

/-- Keep records in the table file at a path. -/
def save (records : List Record) (path : Path) : ExceptT Failure m Unit :=
  Storage.create path (Text.toUtf8 (tableOf records))

end Vesting.Csv
