/-
# The program

The files are those of the system, results go to the standard output and messages to the
standard error output.
-/

import Vesting.Program.Run

namespace Vesting.Main

/-- The fault that an error of the system stands for, if it is one that commands know. -/
def faultOf? : IO.Error → Option FileFault
  | .noFileOrDirectory .. => some .missing
  | .alreadyExists .. => some .alreadyExists
  | .inappropriateType _ code _ => some (if code == 21 then .isDirectory else .notDirectory)
  | _ => none

/-- Do something with a file and hand over a fault. -/
def guarded {α : Type} (action : IO α) : IO (Except FileFault α) :=
  tryCatch (.ok <$> action) fun e =>
    match faultOf? e with
    | some fault => return .error fault
    | none => throw e

/-- What there is at a path of the system. -/
def kindAt (path : Path) : IO (Option FileKind) := do
  let place : IO.FS.DirEntry := { root := path.toString, fileName := "" }
  match ← guarded place.root.metadata with
  | .ok metadata => return some (if metadata.type == .dir then .directory else .file)
  | .error _ => return none

/-- The full text of a path of the system. -/
def fullText (path : Path) : IO String := do
  let here ← IO.currentDir
  let whole := (Path.ofString here.toString).join path
  return (⟨whole.root, Path.settled whole.parts⟩ : Path).toString

instance : Storage IO where
  kind? := kindAt
  read path := guarded ((·.toList) <$> IO.FS.readBinFile path.toString)
  write path content := guarded (IO.FS.writeBinFile path.toString ⟨content.toArray⟩)
  append path content := guarded do
    let file ← IO.FS.Handle.mk path.toString .append
    file.write ⟨content.toArray⟩
  makeDirectory path := guarded (IO.FS.createDir path.toString)
  absolute := fullText
  print := IO.print
  complain := IO.eprint
  chance := IO.rand 0 0xffffffffffffffff

/-- The variables of the environment that settings are read from. -/
def variableNames : List String := [
  "ROOTLOCK_TREE_VERSION", "ROOTLOCK_OUTPUT_DIR", "ROOTLOCK_STRICT_MODE", "ROOTLOCK_LOG_LEVEL",
  "ROOTLOCK_LOG_FILE"]

def environment : IO Environment :=
  variableNames.filterMapM fun name => do return (← IO.getEnv name).map fun value => (name, value)

end Vesting.Main

def main (args : List String) : IO UInt32 := do
  let env ← Vesting.Main.environment
  let outcome ← (Vesting.Program.run env args : ExceptT Vesting.Failure IO _).run
  match outcome with
  | .ok status => return .ofNat status.code
  | .error failure =>
    IO.eprintln s!"{failure.kind}: {failure.message}"
    return 1
