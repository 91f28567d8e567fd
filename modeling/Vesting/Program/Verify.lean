/-
# Verifying

The proof of one recipient is checked against a root, or a whole distribution is audited.
The checks that failed are reported, and in a detailed report all checks.
-/

import Vesting.Invocation
import Vesting.Program.Notes

namespace Vesting.Program

variable {m : Type → Type} [Monad m] [Storage m]

/-- What is told about a verdict. -/
structure VerifySummary where
  distribution : String
  root : Bytes
  /-- The recipient whose proof was checked. -/
  recipient : Option Recipient
  verdict : Verdict
  /-- Whether all checks are reported. -/
  debug : Bool

namespace VerifySummary

/-- The most complaints that are shown in words. -/
def mostShown : Nat := 10

def checks (s : VerifySummary) : List Check := if s.debug then s.verdict.checks else []

def checkFields (c : Check) : Fields :=
  [("check_id", .text c.id), ("ok", .bool c.ok), ("message", .text c.message)]

/-- A list under a name, unless it is empty. -/
def listField (key : String) (items : List Value) : Fields :=
  if items.isEmpty then [] else [(key, .list items)]

def fields (s : VerifySummary) : Fields :=
  [("tree_path", .text s.distribution), ("merkle_root", .text (toHex s.root))] ++
  (s.recipient.map fun r => ("recipient", Value.text r.toHex)).toList ++
  [("ok", .bool s.verdict.ok)] ++
  listField "checks" (s.checks.map fun c => .object (checkFields c)) ++
  listField "errors" (s.verdict.messages.map .text)

def errorLines (messages : List String) : List String :=
  if messages.isEmpty then []
  else "" :: s!"errors ({messages.length}):" ::
    (messages.take mostShown).map fun e => s!"  ✗ {e}"

def checkLines (checks : List Check) : List String :=
  if checks.isEmpty then []
  else
    let passed := (checks.filter (·.ok)).length
    "" :: s!"checks: {passed} passed, {checks.length - passed} failed" ::
      checks.map fun c => if c.ok then s!"  ✓ {c.id}" else s!"  ✗ {c.id}"

def lines (s : VerifySummary) : List String :=
  [s!"tree: {s.distribution}", s!"merkle_root: {toHex s.root}"] ++
  (s.recipient.map fun r => s!"recipient: {r.toHex}").toList ++
  [s!"ok: {s.verdict.ok}"] ++ errorLines s.verdict.messages ++ checkLines s.checks

def print (s : VerifySummary) (json : Bool) : ExceptT Failure m Unit :=
  if json then printFields s.fields else printLines s.lines

end VerifySummary

/-- The source of notes about these commands. -/
def verifySource : String := "rootlock_cli.commands.verify"

/-- The node of a recipient, and the root to check it against: the one that is asked for, or
else the one of the distribution. -/
def verifyInputs (args : VerifyArguments) : ExceptT Failure m (Node × Bytes) := do
  let d ← Distribution.load (.ofString args.distribution)
  let n ← outcome (d.node (.text args.recipient))
  match nonempty args.root with
  | none => return (n, d.root)
  | some root => return (n, ← outcome ((hashOfHex root).mapError .notHex))

/-- Check the proof of a recipient. A fault of a file is reported by the program. -/
def verify (log : Log) (args : VerifyArguments) : ExceptT Failure m ExitStatus := do
  let inputs ← ExceptT.lift (verifyInputs args : ExceptT Failure m (Node × Bytes)).run
  match inputs with
  | .error (.file path fault) => throw (.file path fault)
  | .error failure => complainAndFail s!"Error: {failure.message}"
  | .ok (n, root) =>
    let verdict ← checkNoting log n root
    let summary : VerifySummary :=
      ⟨args.distribution, root, some n.record.recipient, verdict, args.debug⟩
    summary.print args.json
    if verdict.ok then
      log.note .info verifySource s!"Proof verified for {n.record.recipient.toHex}"
      return .success
    else return .mismatch

def audit (log : Log) (args : AuditArguments) : ExceptT Failure m ExitStatus := do
  match ← refusable (Distribution.load (.ofString args.distribution)) with
  | .error refusal => complainAndFail s!"Error loading tree: {refusal.message}"
  | .ok d =>
    let verdict ← auditNoting log d
    let summary : VerifySummary := ⟨args.distribution, d.root, none, verdict, args.debug⟩
    summary.print args.json
    if verdict.ok then
      log.note .info verifySource s!"Tree verified: {d.nodes.length} nodes"
      return .success
    else
      log.note .warning verifySource s!"Tree verification failed: {args.distribution}"
      return .mismatch

end Vesting.Program
