/-
# Settings

Settings say under which version and where distributions are kept, whether they are
audited once written, and what is logged. They are of free form: a value is taken as it
is given and looked at when it is used, while a section that is no mapping and a key that
a section does not have are faults. What is left out or blank has its default.
-/

import Vesting.Failure
import Vesting.Path
import Vesting.Value.Display

namespace Vesting

/-- Settings for distributions. -/
structure TreeSettings where
  version : Value
  outputDirectory : Value
  fileName : Value
  /-- Whether a distribution is audited once it is written. -/
  strict : Value

/-- Settings for the log. -/
structure LogSettings where
  level : Value
  file : Value

/-- All settings. What else is given is kept. -/
structure Settings where
  tree : TreeSettings
  log : LogSettings
  extra : Value

namespace TreeSettings

def default : TreeSettings :=
  ⟨.int 0, .text "./merkle_tree", .text "merkle_tree.json", .bool true⟩

def keys : List String := ["version", "output_dir", "file_name", "strict_mode"]

def ofFields (fields : Fields) : TreeSettings where
  version := (Fields.get? fields "version").getD default.version
  outputDirectory := (Fields.get? fields "output_dir").getD default.outputDirectory
  fileName := (Fields.get? fields "file_name").getD default.fileName
  strict := (Fields.get? fields "strict_mode").getD default.strict

def fields (s : TreeSettings) : Fields := [
  ("version", s.version), ("output_dir", s.outputDirectory), ("file_name", s.fileName),
  ("strict_mode", s.strict)]

def outputPath (s : TreeSettings) : Except SettingsFault Path :=
  match s.outputDirectory, s.fileName with
  | .text directory, .text file => .ok ((Path.ofString directory).join (.ofString file))
  | .text _, other => .error (.fileNameType other.typeName)
  | other, _ => .error (.directoryType other.typeName)

end TreeSettings

namespace LogSettings

def default : LogSettings := ⟨.text "INFO", .null⟩

def keys : List String := ["level", "file"]

def ofFields (fields : Fields) : LogSettings where
  level := (Fields.get? fields "level").getD default.level
  file := (Fields.get? fields "file").getD default.file

def fields (s : LogSettings) : Fields := [("level", s.level), ("file", s.file)]

end LogSettings

namespace Settings

def default : Settings := ⟨.default, .default, .object []⟩

/-- The values of a section with some keys. -/
def readSection (part : String) (keys : List String) : Option Value → Except SettingsFault Fields
  | none => .ok []
  | some (.object fields) =>
    match fields.find? fun field => !keys.contains field.1 with
    | some (key, _) => .error (.unknownKey part key)
    | none => .ok fields
  | some v => if v.isBlank then .ok [] else .error (.notSection part v.typeName)

/-- Settings given by a value of free form. -/
def ofValue : Value → Except SettingsFault Settings
  | .object fields => do
    let tree ← readSection "TreeConfig" TreeSettings.keys (Fields.get? fields "tree")
    let log ← readSection "LoggingConfig" LogSettings.keys (Fields.get? fields "logging")
    return ⟨.ofFields tree, .ofFields log, (Fields.get? fields "extra").getD (.object [])⟩
  | v => .error (.notFields v.typeName)

def fields (s : Settings) : Fields := [
  ("tree", .object s.tree.fields), ("logging", .object s.log.fields), ("extra", s.extra)]

def template : String :=
  "\n".intercalate [
    "tree:", "  version: 0", "  output_dir: ./merkle_tree", "  file_name: merkle_tree.json",
    "  strict_mode: true", "logging:", "  level: INFO", "  file: null", "extra: \x7b\x7d", ""]

end Settings

end Vesting
