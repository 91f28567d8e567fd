/-
# Showing proofs

The record of a recipient is shown with its proof, its total and the root.
-/

import Vesting.Distribution.File
import Vesting.Invocation
import Vesting.Program.Outcome

namespace Vesting.Program

variable {m : Type → Type} [Monad m] [Storage m]

/-- What is shown of a node in words. -/
def proofLines (d : Distribution) (n : Node) (total : Nat) : List String :=
  let siblings := n.proof.getD []
  [s!"recipient: {n.record.recipient.toHex}", s!"merkle_root: {toHex d.root}",
    s!"total_amount: {total}", s!"proof ({siblings.length}):"] ++
  siblings.map fun sibling => s!"  {toHex sibling}"

/-- What is shown of a node as fields. -/
def proofFields (d : Distribution) (n : Node) (total : Nat) : Fields :=
  n.fields ++ [("merkle_root", .text (toHex d.root)), ("total_amount", .int total)]

def showProof (args : ProofArguments) : ExceptT Failure m ExitStatus := do
  let found ← refusable do
    let d ← Distribution.load (.ofString args.distribution)
    let n ← outcome (d.node (.text args.recipient))
    return (d, n)
  match found with
  | .error refusal => reportRefusal "reading proof" refusal args.json
  | .ok (d, n) =>
    let total ← outcome (n.record.total.mapError .refused)
    if args.json then printFields (proofFields d n total) else printLines (proofLines d n total)
    return .success

end Vesting.Program
