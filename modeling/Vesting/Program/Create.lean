/-
# Creating distributions

The records of a table become a distribution, which is kept in a file. If it is asked
for, the file is read back and audited.
-/

import Vesting.Csv.File
import Vesting.Invocation
import Vesting.Program.Notes

namespace Vesting.Program

variable {m : Type → Type} [Monad m] [Storage m]

/-- What is told about a distribution that has been created. -/
structure CreateSummary where
  table : Path
  output : Path
  version : Value
  distribution : Distribution
  audited : Bool
  errors : List String

namespace CreateSummary

/-- The number of layers of the tree. -/
def depth (s : CreateSummary) : Nat := Merkle.depthFor s.distribution.maxEscrows.toNat

def fields (s : CreateSummary) : Fields :=
  [("csv_path", .text s.table.toString), ("out_path", .text s.output.toString),
    ("merkle_root", .text (toHex s.distribution.root)), ("version", s.version),
    ("max_claim_amount", Record.ofWord s.distribution.maxClaim),
    ("max_escrow", Record.ofWord s.distribution.maxEscrows), ("depth", .int s.depth),
    ("audited", .bool s.audited)] ++
  if s.errors.isEmpty then [] else [("errors", .texts s.errors)]

def lines (s : CreateSummary) : List String :=
  [s!"tree: {s.output.toString}", s!"merkle_root: {toHex s.distribution.root}",
    s!"version: {s.version.plainText}",
    s!"max_claim_amount: {s.distribution.maxClaim.toNat}",
    s!"max_escrow: {s.distribution.maxEscrows.toNat}", s!"depth: {s.depth}"] ++
  s.errors.map fun e => s!"  ✗ {e}"

end CreateSummary

/-- The source of notes about this command. -/
def createSource : String := "rootlock_cli.commands.tree"

/-- Read a distribution back and audit it; the complaints. -/
def auditKept (log : Log) (path : Path) : ExceptT Failure m Verdict := do
  auditNoting log (← Distribution.load path)

/-- Where the distribution is kept: where it is asked for, or where the settings say. -/
def outputPath (s : Settings) (asked : Option String) : ExceptT Failure m Path :=
  match nonempty asked with
  | some path => return .ofString path
  | none => outcome (s.tree.outputPath.mapError .settings)

def create (log : Log) (s : Settings) (args : CreateArguments) :
    ExceptT Failure m ExitStatus := do
  let table := Path.ofString args.table
  let output ← outputPath s args.output
  let version := (args.version.map .int).getD s.tree.version
  let strict := args.strict.getD !s.tree.strict.isBlank
  let made ← refusable do
    let d ← build log (← Csv.load table) version
    keep log d output
    return d
  match made with
  | .error refusal => reportRefusal "building tree" refusal args.json
  | .ok d =>
    let verdict ← if strict then auditKept log output else pure (Verdict.success [])
    if !verdict.ok then
      log.note .warning createSource s!"Written tree failed its audit: {output.toString}"
    let summary : CreateSummary := ⟨table, output, version, d, strict, verdict.messages⟩
    if args.json then printFields summary.fields else printLines summary.lines
    return if verdict.ok then .success else .mismatch

end Vesting.Program
