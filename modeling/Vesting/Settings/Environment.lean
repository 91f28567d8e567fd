/-
# Settings of the environment

Variables of the environment override settings; one that is empty counts as not set. The
version has to be a whole number, and only the word `true` in small or capital letters
switches audits on.
-/

import Vesting.Settings

namespace Vesting

abbrev Environment := List (String × String)

/-- The value of a variable that is set and not empty. -/
def Environment.get? (env : Environment) (name : String) : Option String :=
  ((env.find? (·.1 == name)).map (·.2)).filter (!·.isEmpty)

/-- What the environment says in place of settings. -/
structure Overrides where
  version : Option Int
  outputDirectory : Option String
  strict : Option Bool
  level : Option String
  file : Option String

namespace Overrides

/-- Read the version, if there is one. -/
def readVersion : Option String → Except Failure (Option Int)
  | none => .ok none
  | some s => ((Text.readNumber s).map some).mapError (.notWhole s)

def ofEnvironment (env : Environment) : Except Failure Overrides := do
  let version ← readVersion (env.get? "ROOTLOCK_TREE_VERSION")
  return {
    version := version
    outputDirectory := env.get? "ROOTLOCK_OUTPUT_DIR"
    strict := (env.get? "ROOTLOCK_STRICT_MODE").map (·.toLower == "true")
    level := env.get? "ROOTLOCK_LOG_LEVEL"
    file := env.get? "ROOTLOCK_LOG_FILE" }

/-- What is said about distributions, by the keys of their section. -/
def treeFields (o : Overrides) : Fields :=
  (o.version.map fun n => ("version", .int n)).toList ++
    (o.outputDirectory.map fun s => ("output_dir", .text s)).toList ++
    (o.strict.map fun b => ("strict_mode", .bool b)).toList

/-- What is said about the log, by the keys of its section. -/
def logFields (o : Overrides) : Fields :=
  (o.level.map fun s => ("level", .text s)).toList ++
    (o.file.map fun s => ("file", .text s)).toList

/-- A section of settings that are given in part; without fields there is no section. -/
def part (name : String) (fields : Fields) : Fields :=
  if fields.isEmpty then [] else [(name, .object fields)]

/-- What is said, as settings of which the rest is left out. -/
def fields (o : Overrides) : Fields := part "tree" o.treeFields ++ part "logging" o.logFields

def isEmpty (o : Overrides) : Bool := o.fields.isEmpty

end Overrides

/-- Assign a value to a key of the section. -/
def TreeSettings.assign (s : TreeSettings) (field : String × Value) : TreeSettings :=
  match field with
  | ("version", v) => { s with version := v }
  | ("output_dir", v) => { s with outputDirectory := v }
  | ("file_name", v) => { s with fileName := v }
  | ("strict_mode", v) => { s with strict := v }
  | _ => s

/-- Assign a value to a key of the section. -/
def LogSettings.assign (s : LogSettings) (field : String × Value) : LogSettings :=
  match field with
  | ("level", v) => { s with level := v }
  | ("file", v) => { s with file := v }
  | _ => s

/-- Assign what is said, one key after another. -/
def Overrides.apply (o : Overrides) (s : Settings) : Settings where
  tree := o.treeFields.foldl TreeSettings.assign s.tree
  log := o.logFields.foldl LogSettings.assign s.log
  extra := s.extra

/-- The settings that the environment makes: what it says is read like any settings that are
given in part. -/
def Settings.ofEnvironment (env : Environment) : Except Failure Settings := do
  let o ← Overrides.ofEnvironment env
  (ofValue (.object o.fields)).mapError .settings

def Settings.within (s : Settings) (env : Environment) : Except Failure Settings :=
  (Overrides.ofEnvironment env).map (·.apply s)

end Vesting
