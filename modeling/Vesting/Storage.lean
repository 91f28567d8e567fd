/-
# Storage

What commands need of the world: to look at, read and write files, to print, and to draw
lots. A monad that offers this can run them; one such monad keeps everything in a volume
in memory, where a written file is read back as it was written and nothing is left to
chance.
-/

import Vesting.Failure
import Vesting.Path

namespace Vesting

/-- What there can be at a path. -/
inductive FileKind
  | file
  | directory
  deriving DecidableEq

/-- A monad with files, two channels of output, and chance. -/
class Storage (m : Type → Type) where
  /-- What there is at a path. -/
  kind? : Path → m (Option FileKind)
  /-- The content of a file. -/
  read : Path → m (Except FileFault Bytes)
  /-- Give a file a content, creating it if need be. -/
  write : Path → Bytes → m (Except FileFault Unit)
  /-- Add to the end of a file, creating it if need be. -/
  append : Path → Bytes → m (Except FileFault Unit)
  /-- Create a directory. -/
  makeDirectory : Path → m (Except FileFault Unit)
  /-- The full text of a path. -/
  absolute : Path → m String
  /-- Print to the results. -/
  print : String → m Unit
  /-- Print to the messages. -/
  complain : String → m Unit
  /-- A number that nobody can foresee. -/
  chance : m Nat

namespace Storage

variable {m : Type → Type} [Monad m] [Storage m]

def atPath {α : Type} (path : String) (r : Except FileFault α) : Except Failure α :=
  r.mapError (.file path)

/-- Create a directory unless there is one. -/
def ensureDirectory (path : Path) : ExceptT Failure m Unit := do
  match ← (makeDirectory path : m (Except FileFault Unit)) with
  | .ok () => return ()
  | .error .missing => throw (.file path.toString .missing)
  | .error fault =>
    match ← (kind? path : m (Option FileKind)) with
    | some .directory => return ()
    | _ => throw (.file path.toString fault)

/-- Create a directory and those above it that do not exist; `parts` are the parts of its
path, last first. -/
def makeDirectories (root : String) : List String → ExceptT Failure m Unit
  | [] => ensureDirectory ⟨root, []⟩
  | part :: above => do
    let path : Path := ⟨root, (part :: above).reverse⟩
    match ← ExceptT.lift (ensureDirectory path : ExceptT Failure m Unit).run with
    | .ok () => return ()
    | .error (.file _ .missing) =>
      makeDirectories root above
      ensureDirectory path
    | .error failure => throw failure

/-- Create a file with a content, and the directories that it lies in. -/
def create (path : Path) (content : Bytes) : ExceptT Failure m Unit := do
  makeDirectories path.parent.root path.parent.parts.reverse
  ExceptT.mk (atPath path.toString <$> (write path content : m (Except FileFault Unit)))

def printLine (line : String) : ExceptT Failure m Unit :=
  ExceptT.lift (print (line ++ "\n"))

def complainLine (line : String) : ExceptT Failure m Unit :=
  ExceptT.lift (complain (line ++ "\n"))

/-- The content of a file, or nothing if nothing is there. -/
def load (path : Path) : ExceptT Failure m (Option Bytes) := do
  match ← (kind? path : m (Option FileKind)) with
  | none => return none
  | some _ =>
    let content ← ExceptT.mk (atPath path.toString <$> (read path : m (Except FileFault Bytes)))
    return some content

end Storage

/-- An entry of a volume. -/
inductive Entry
  | file (content : Bytes)
  | directory

/-- Files and directories below a working directory, which has the text `home`, and what
has been printed. -/
structure Volume where
  home : String
  entries : List (List String × Entry)
  results : String
  messages : String

namespace Volume

def empty (home : String) : Volume := ⟨home, [], "", ""⟩

/-- What is below the working directory at some parts. -/
def entry? (v : Volume) (parts : List String) : Option Entry :=
  if parts.isEmpty then some .directory
  else (v.entries.find? (·.1 == parts)).map (·.2)

/-- Where a path leads from a working directory. -/
inductive Place
  | below (parts : List String)
  /-- A directory above the working directory. -/
  | above

/-- Where a path leads outside of the working directory: nothing is known there but the
directories further up. -/
def outside (parts : List String) : Except FileFault Place :=
  if parts.all (· == "..") then .ok .above else .error .missing

/-- Follow the parts of a path from some parts on. Every directory on the way has to
exist. -/
def follow (v : Volume) (here : List String) : List String → Except FileFault Place
  | [] => .ok (.below here)
  | part :: rest =>
    match v.entry? here with
    | none => .error .missing
    | some (.file _) => .error .notDirectory
    | some .directory =>
      if part != ".." then v.follow (here ++ [part]) rest
      else if here.isEmpty then outside rest
      else v.follow here.dropLast rest

def locate (v : Volume) (path : Path) : Except FileFault Place :=
  if path.root.isEmpty then v.follow [] path.parts else outside path.parts

def find? (v : Volume) (path : Path) : Option Entry :=
  match v.locate path with
  | .ok (.below parts) => v.entry? parts
  | .ok .above => some .directory
  | .error _ => none

def put (v : Volume) (parts : List String) (e : Entry) : Volume :=
  if v.entries.any (·.1 == parts) then
    { v with entries := v.entries.map fun old => if old.1 == parts then (parts, e) else old }
  else { v with entries := v.entries ++ [(parts, e)] }

/-- Change the content of the file at a path. -/
def update (v : Volume) (path : Path) (change : Bytes → Bytes) : Except FileFault Unit × Volume :=
  match v.locate path with
  | .error fault => (.error fault, v)
  | .ok .above => (.error .isDirectory, v)
  | .ok (.below parts) =>
    match v.entry? parts with
    | some .directory => (.error .isDirectory, v)
    | some (.file content) => (.ok (), v.put parts (.file (change content)))
    | none => (.ok (), v.put parts (.file (change [])))

def addDirectory (v : Volume) (path : Path) : Except FileFault Unit × Volume :=
  match v.locate path with
  | .error fault => (.error fault, v)
  | .ok .above => (.error .alreadyExists, v)
  | .ok (.below parts) =>
    match v.entry? parts with
    | some _ => (.error .alreadyExists, v)
    | none => (.ok (), v.put parts .directory)

/-- The content of the file at a path. -/
def content (v : Volume) (path : Path) : Except FileFault Bytes :=
  match v.locate path with
  | .error fault => .error fault
  | .ok .above => .error .isDirectory
  | .ok (.below parts) =>
    match v.entry? parts with
    | some (.file content) => .ok content
    | some .directory => .error .isDirectory
    | none => .error .missing

def fullText (v : Volume) (path : Path) : String :=
  if path.root.isEmpty && path.parts.head? != some ".." then
    "/".intercalate (v.home :: Path.settled path.parts)
  else path.toString

end Volume

instance : Storage (StateM Volume) where
  kind? path := fun v =>
    ((v.find? path).map fun e => match e with
      | .file _ => .file
      | .directory => .directory, v)
  read path := fun v => (v.content path, v)
  write path content := fun v => v.update path fun _ => content
  append path content := fun v => v.update path (· ++ content)
  makeDirectory path := fun v => v.addDirectory path
  absolute path := fun v => (v.fullText path, v)
  print s := modify fun v => { v with results := v.results ++ s }
  complain s := modify fun v => { v with messages := v.messages ++ s }
  chance := pure 0

end Vesting
