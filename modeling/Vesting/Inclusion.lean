/-
# Inclusion of records

A record is included in a root if the path given for it leads from its leaf to that
root. The answer is given as a verdict; a path that leads elsewhere is reported with the
root it should lead to and the one it does.
-/

import Vesting.Batch
import Vesting.Verdict

namespace Vesting.Inclusion

/-- Whether a path leads from a record to a root. -/
def holds (r : Record) (siblings : List Bytes) (root : Bytes) : Bool :=
  Merkle.foldPath r.leaf siblings == root

/-- What an inclusion check says about the record. -/
def details (r : Record) (siblings : List Bytes) : Fields :=
  [("recipient", .text r.recipient.toHex), ("proof_length", .int siblings.length)]

/-- The report about a path that leads to another root. -/
def mismatch (r : Record) (siblings : List Bytes) (root : Bytes) : Report :=
  { code := "MERKLE_PROOF_INVALID"
    message := Refusal.proofMessage
    details := details r siblings
    facts := .proof (some (toHex root)) (some (toHex (Merkle.foldPath r.leaf siblings))) }

def checkId : String := "merkle_inclusion"

/-- Check that a path leads from a record to a root. -/
def check (r : Record) (siblings : List Bytes) (root : Bytes) : Verdict :=
  if holds r siblings root then
    .success [⟨checkId, true, "Record is included in root", details r siblings⟩]
  else
    ⟨false,
      [.failed checkId "Recomputed root does not match committed root" (details r siblings)],
      some (mismatch r siblings root)⟩

/-- The verdict is good exactly if the path leads to the root. -/
theorem ok_check (r : Record) (siblings : List Bytes) (root : Bytes) :
    (check r siblings root).ok = holds r siblings root := by
  unfold check
  split <;> simp_all [Verdict.success]

end Vesting.Inclusion
