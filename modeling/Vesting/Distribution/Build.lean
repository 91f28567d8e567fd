/-
# Building distributions

A batch that passes its checks becomes a distribution: a tree is built over its records,
every record gets its proof, the totals are summed, and the result is audited before it
is handed out.
-/

import Vesting.Distribution.Audit
import Vesting.Schema.Reading

namespace Vesting.Distribution

/-- Every record of a batch with the proof that the tree has for its place. -/
def nodesOf (tree : Merkle.Tree) (records : List Record) : List Node :=
  (records.zip tree.proofs).map fun (record, siblings) => ⟨record, some siblings⟩

/-- The distribution of a batch before its audit. -/
def assemble (records : List Record) (version : UInt64) : Except Refusal Distribution := do
  if records.isEmpty then throw (.emptyInput Refusal.emptyMessage)
  Batch.check records
  let tree ← Batch.tree records
  let total ← Batch.total records
  return ⟨tree.root, version, .ofNat total, .ofNat records.length, nodesOf tree records⟩

def build (records : List Record) (version : UInt64) : Except Refusal Distribution := do
  let d ← assemble records version
  d.validate
  return d

/-- The distribution of a batch before its audit under a version of free form, which is
read once the batch has been found good. -/
def assembleAs (records : List Record) (version : Value) : Except Failure Distribution :=
  match assemble records 0 with
  | .error refusal => .error (.refused refusal)
  | .ok d =>
    match ((Schema.word version).under (.field "version")).toExcept "VestingMerkleTree" with
    | .error rejection => .error (.rejected rejection)
    | .ok version => .ok { d with version := version }

/-- The distribution of a batch under a version of free form. -/
def buildAs (records : List Record) (version : Value) : Except Failure Distribution :=
  match assembleAs records version with
  | .error failure => .error failure
  | .ok d =>
    match d.validate with
    | .error refusal => .error (.refused refusal)
    | .ok () => .ok d

end Vesting.Distribution
