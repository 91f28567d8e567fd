/-
# Files of distributions

A distribution is kept as indented JSON. Loading reads the file as text, the text as
JSON and the JSON as a distribution; a file that is missing or malformed is refused,
while one that is no text is a failure of its own.
-/

import Vesting.Distribution.Reading
import Vesting.Storage

namespace Vesting.Distribution

variable {m : Type → Type} [Monad m] [Storage m]

/-- The distribution in the file at a path. -/
def load (path : Path) : ExceptT Failure m Distribution := do
  match ← Storage.load path with
  | none => throw (.refused (notFound path.toString))
  | some content => ExceptT.mk (pure (ofFile path.toString content))

/-- Keep a distribution in the file at a path. -/
def save (d : Distribution) (path : Path) : ExceptT Failure m Unit :=
  Storage.create path (Text.toUtf8 d.toText)

end Vesting.Distribution
