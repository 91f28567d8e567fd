/-
# Operations with notes

Building, keeping, auditing and checking as the library does them, with notes in the log
about what has been done.
-/

import Vesting.Amendment
import Vesting.Distribution.File
import Vesting.Log
import Vesting.Program.Outcome

namespace Vesting.Program

variable {m : Type → Type} [Monad m] [Storage m]

def treeSource : String := "rootlock.merkle.merkle_tree"

def distributionSource : String := "rootlock.merkle.distribution"

def rotationSource : String := "rootlock.registry.rotation"

/-- Note that a tree over records has been built, if there is one. -/
def noteTree (log : Log) (records : List Record) : ExceptT Failure m Unit := do
  if log.threshold ≤ Severity.debug.rank then
    match Batch.tree records with
    | .error _ => return ()
    | .ok t =>
      log.note .debug treeSource
        s!"Built Merkle tree: {t.count} leaves, {t.depth} layers, root {toHex t.root}"

/-- Note that a tree over records has been built to make a distribution, which is not done
before they have been checked. -/
def noteChecked (log : Log) (records : List Record) : ExceptT Failure m Unit := do
  if log.threshold ≤ Severity.debug.rank then
    match Batch.check records with
    | .error _ => return ()
    | .ok () => noteTree log records

/-- The note that a distribution has been created. -/
def createdMessage (d : Distribution) : String :=
  s!"Created vesting tree version {d.version.toNat} with {d.maxEscrows.toNat} escrows " ++
    s!"and total claim amount {d.maxClaim.toNat} root {toHex d.root}"

/-- The note that a rotation has been planned. -/
def plannedMessage (a : Amendment) : String :=
  s!"Planned rotation {toHex a.oldRoot} -> {toHex a.distribution.root} " ++
    s!"(+{a.added.length} / -{a.removed.length} recipients)"

def build (log : Log) (records : List Record) (version : Value) :
    ExceptT Failure m Distribution := do
  noteChecked log records
  let d ← outcome (Distribution.assembleAs records version)
  log.note .info distributionSource (createdMessage d)
  noteTree log d.records
  outcome (d.validate.mapError .refused)
  return d

def keep (log : Log) (d : Distribution) (path : Path) : ExceptT Failure m Unit := do
  d.save path
  log.note .info distributionSource s!"Wrote vesting tree to {path.toString}"

def auditNoting (log : Log) (d : Distribution) : ExceptT Failure m Verdict := do
  noteTree log d.records
  return d.audit

/-- Check the proof of a node against a root. -/
def checkNoting (log : Log) (n : Node) (root : Bytes) : ExceptT Failure m Verdict := do
  let verdict := Inclusion.check n.record (n.proof.getD []) root
  if !verdict.ok then
    log.note .warning treeSource
      s!"Proof rejected for recipient {n.record.recipient.toHex} against root {toHex root}"
  return verdict

/-- Plan a rotation from a distribution to new records. -/
def planNoting (log : Log) (current : Distribution) (new : List Record) (version : Value) :
    ExceptT Failure m Amendment := do
  let d ← build log new version
  let a ← outcome ((Amendment.toward current.root d new (some current.records)).mapError .refused)
  log.note .info rotationSource (plannedMessage a)
  return a

end Vesting.Program
