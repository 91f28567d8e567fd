/-
# The log

Commands note what happens. A note has a severity and a source; notes below a threshold
are dropped, the others are printed to the messages and added to the log file, if there
is one. The file is created before anything is noted.
-/

import Vesting.Settings
import Vesting.Storage

namespace Vesting

/-- How severe a note is. -/
inductive Severity
  | debug
  | info
  | warning
  | error
  deriving DecidableEq

namespace Severity

def rank : Severity → Nat
  | debug => 10
  | info => 20
  | warning => 30
  | error => 40

def label : Severity → String
  | debug => "DEBUG"
  | info => "INFO"
  | warning => "WARNING"
  | error => "ERROR"

/-- The severities that can be asked for on the command line. -/
def all : List Severity := [debug, info, warning, error]

end Severity

/-- Where notes go, and from which rank on. -/
structure Log where
  threshold : Nat
  file : Option Path

namespace Log

/-- The capitals of a letter that can occur in the name of a level. -/
def capitals (c : Char) : List Char :=
  if c == '\u0131' then ['I']
  else if c == '\u017f' then ['S']
  else if c == '\ufb05' || c == '\ufb06' then ['S', 'T']
  else [c.toUpper]

/-- The usual layout of a note. -/
def layout : String := "%(levelname)s:%(name)s:%(message)s"

/-- The styles in which a layout can be written, as they are shown. -/
def layoutStyles : String :=
  "\x7b'%': (<class 'logging.PercentStyle'>, '%(levelname)s:%(name)s:%(message)s'), " ++
    "'\x7b': (<class 'logging.StrFormatStyle'>, " ++
    "'\x7blevelname\x7d:\x7bname\x7d:\x7bmessage\x7d'), " ++
    "'$': (<class 'logging.StringTemplateStyle'>, " ++
    "'$\x7blevelname\x7d:$\x7bname\x7d:$\x7bmessage\x7d')\x7d"

/-- The rank that a level stands for, in small or capital letters; a name that is not known
stands for information. Two names are known that stand for no rank. -/
def rankOf (level : String) : Except SettingsFault Nat :=
  match String.ofList (level.toList.flatMap capitals) with
  | "NOTSET" => .ok 0
  | "DEBUG" => .ok 10
  | "WARN" => .ok 30
  | "WARNING" => .ok 30
  | "ERROR" => .ok 40
  | "FATAL" => .ok 50
  | "CRITICAL" => .ok 50
  | "BASIC_FORMAT" => .error (.levelText layout)
  | "_STYLES" => .error (.levelValue layoutStyles)
  | _ => .ok 20

/-- The level that settings ask for, unless one is given. -/
def levelOf (given : Option String) (level : Value) : Except SettingsFault String :=
  match given, level with
  | some name, _ => .ok name
  | none, .text name => .ok name
  | none, other => .error (.levelType other.typeName)

/-- The log file that settings ask for. -/
def fileOf (file : Value) : Except SettingsFault (Option Path) :=
  if file.isBlank then .ok none
  else match file with
    | .text path => .ok (some (.ofString path))
    | other => .error (.logFileType other.typeName)

/-- The log of a level. -/
def ofLevel (level : String) (file : Option Path) : Except Failure Log :=
  match rankOf level with
  | .error fault => .error (.settings fault)
  | .ok threshold => .ok ⟨threshold, file⟩

variable {m : Type → Type} [Monad m] [Storage m]

/-- Create a file that notes are added to. A fault names its full path. -/
def createFile (path : Path) : ExceptT Failure m Unit := do
  match ← (Storage.append path [] : m (Except FileFault Unit)) with
  | .ok () => return ()
  | .error fault => throw (.file (← (Storage.absolute path : m String)) fault)

/-- Open the log that settings ask for. Its file is created even if the level stands for no
rank. -/
def start (given : Option String) (s : LogSettings) : ExceptT Failure m Log := do
  match levelOf given s.level with
  | .error fault => throw (.settings fault)
  | .ok level =>
    match fileOf s.file with
    | .error fault => throw (.settings fault)
    | .ok none => ExceptT.mk (pure (ofLevel level none))
    | .ok (some path) =>
      createFile path
      ExceptT.mk (pure (ofLevel level (some path)))

def line (severity : Severity) (source message : String) : String :=
  s!"[{severity.label}] {source}: {message}\n"

/-- Note something. The message is made up only if it is needed. -/
def note (log : Log) (severity : Severity) (source : String) (message : Thunk String) :
    ExceptT Failure m Unit := do
  if log.threshold ≤ severity.rank then
    let text := line severity source message.get
    ExceptT.lift (Storage.complain text)
    match log.file with
    | none => return ()
    | some path =>
      let _ ← (Storage.append path (Text.toUtf8 text) : m (Except FileFault Unit))
      return ()

end Log

end Vesting
