/-
# Failures

An operation that touches files, text and free-form input can fail in more ways than by
a refusal. A failure names the cause; its message is what is shown to a person.
-/

import Vesting.Merkle.Tree
import Vesting.Refusal
import Vesting.Schema.Message
import Vesting.Text.Utf8
import Vesting.Text.WholeNumber

namespace Vesting

/-- What is wrong with a file or a directory. -/
inductive FileFault
  | missing
  | alreadyExists
  | notDirectory
  | isDirectory
  deriving DecidableEq

/-- The message for a fault of the file or directory at a path. -/
def FileFault.message (path : String) : FileFault → String
  | .missing => "[Errno 2] No such file or directory: " ++ Text.quoted path
  | .alreadyExists => "[Errno 17] File exists: " ++ Text.quoted path
  | .notDirectory => "[Errno 20] Not a directory: " ++ Text.quoted path
  | .isDirectory => "[Errno 21] Is a directory: " ++ Text.quoted path

/-- The kind of a fault of a file or a directory. -/
def FileFault.kind : FileFault → String
  | .missing => "FileNotFoundError"
  | .alreadyExists => "FileExistsError"
  | .notDirectory => "NotADirectoryError"
  | .isDirectory => "IsADirectoryError"

/-- What is wrong with settings. Types are named as they are in messages. -/
inductive SettingsFault
  | missingFile (path : String)
  /-- The settings are no mapping. -/
  | notFields (type : String)
  /-- A section of the settings is no mapping. -/
  | notSection (part : String) (type : String)
  | unknownKey (part : String) (key : String)
  /-- The directory is no path. -/
  | directoryType (type : String)
  /-- The file name is no path. -/
  | fileNameType (type : String)
  /-- The log level is no text. -/
  | levelType (type : String)
  /-- The log level names a text that is no level. -/
  | levelText (text : String)
  /-- The log level names something that is neither a number nor a text. -/
  | levelValue (shown : String)
  /-- The log file is no path. -/
  | logFileType (type : String)
  deriving DecidableEq

/-- The message for settings that cannot be used. -/
def SettingsFault.message : SettingsFault → String
  | .missingFile path => s!"Config file not found: {path}"
  | .notFields type => s!"'{type}' object has no attribute 'get'"
  | .notSection name type =>
    s!"rootlock.config.runtime.{name}() argument after ** must be a mapping, not {type}"
  | .unknownKey name key => s!"{name}.__init__() got an unexpected keyword argument '{key}'"
  | .directoryType type =>
    if type == "bytes" then
      "argument should be a str object or an os.PathLike object returning str, not <class 'bytes'>"
    else s!"expected str, bytes or os.PathLike object, not {type}"
  | .fileNameType type => s!"unsupported operand type(s) for /: 'PosixPath' and '{type}'"
  | .levelType type => s!"'{type}' object has no attribute 'upper'"
  | .levelText text => s!"Unknown level: '{text}'"
  | .levelValue shown => s!"Level not an integer or a valid string: {shown}"
  | .logFileType type => s!"expected str, bytes or os.PathLike object, not {type}"

/-- The kind of a fault of settings. -/
def SettingsFault.kind : SettingsFault → String
  | .missingFile .. => "FileNotFoundError"
  | .notFields .. => "AttributeError"
  | .notSection .. => "TypeError"
  | .unknownKey .. => "TypeError"
  | .directoryType .. => "TypeError"
  | .fileNameType .. => "TypeError"
  | .levelType .. => "AttributeError"
  | .levelText .. => "ValueError"
  | .levelValue .. => "TypeError"
  | .logFileType .. => "TypeError"

/-- Why an operation failed. -/
inductive Failure
  | refused (refusal : Refusal)
  | rejected (rejection : Rejection)
  | notHex (fault : Hex.Fault)
  | leafSize (index size : Nat)
  | leafIndex (fault : Merkle.IndexFault)
  | notText (fault : Text.Utf8Fault)
  | notWhole (text : String) (fault : Text.WholeFault)
  | cellTooLong (limit : Nat)
  | file (path : String) (fault : FileFault)
  | settings (fault : SettingsFault)
  | notYaml

/-- The kind of a failure; that of a refusal is its code. -/
def Failure.kind : Failure → String
  | .refused refusal => refusal.code
  | .rejected _ => "ValidationError"
  | .notHex _ => "ValueError"
  | .leafSize .. => "ValueError"
  | .leafIndex _ => "IndexError"
  | .notText _ => "UnicodeDecodeError"
  | .notWhole .. => "ValueError"
  | .cellTooLong _ => "Error"
  | .file _ fault => fault.kind
  | .settings fault => fault.kind
  | .notYaml => "YAMLError"

/-- What a person is told about a failure. -/
def Failure.message : Failure → String
  | .refused refusal => refusal.message
  | .rejected rejection => rejection.message
  | .notHex fault => fault.message
  | .leafSize index size => Merkle.leafSizeMessage index size
  | .leafIndex fault => fault.message
  | .notText fault => fault.message
  | .notWhole text fault => fault.message text
  | .cellTooLong limit => s!"field larger than field limit ({limit})"
  | .file path fault => fault.message path
  | .settings fault => fault.message
  | .notYaml => "The settings are not valid YAML"

end Vesting
