/-
# Files of settings

Settings are kept in YAML. An empty document stands for the defaults.
-/

import Vesting.Settings
import Vesting.Storage
import Vesting.Yaml.Document

namespace Vesting.Settings

/-- The settings in the content of a file. -/
def ofContent (content : Bytes) : Except Failure Settings :=
  match Text.ofUtf8 content with
  | .error fault => .error (.notText fault)
  | .ok text =>
    match Value.ofYaml text with
    | .error failure => .error failure
    | .ok v => (ofValue (if v.isBlank then .object [] else v)).mapError .settings

variable {m : Type → Type} [Monad m] [Storage m]

/-- The settings in the file at a path. -/
def load (path : Path) : ExceptT Failure m Settings := do
  match ← Storage.load path with
  | none => throw (.settings (.missingFile path.toString))
  | some content => ExceptT.mk (pure (ofContent content))

end Vesting.Settings
