/-
# Audits

An audit asks of a distribution whether its parts fit together: that it is not too
large, that it holds as many nodes as it says and no recipient twice, that the totals add
up, that the root is the one of its records, and that every proof leads there. All six
questions are always asked, in this order. A distribution is valid if all are answered
well.
-/

import Vesting.Distribution
import Vesting.Inclusion
import Vesting.Verdict

namespace Vesting.Distribution

/-- A check that fails with a message if there is one. -/
def checkFor (id : String) (complaint : Option (String × Fields)) : Check :=
  match complaint with
  | none => .passed id
  | some (message, details) => .failed id message details

/-- A distribution promises at most as many escrows as a tree has leaves. -/
def limitComplaint (d : Distribution) : Option (String × Fields) :=
  if maxNodes < d.maxEscrows.toNat then
    some (s!"Max num nodes {d.maxEscrows.toNat} is greater than 2^32 - 1", [])
  else none

/-- A distribution holds as many nodes as it promises escrows. -/
def countComplaint (d : Distribution) : Option (String × Fields) :=
  if d.nodes.length ≠ d.maxEscrows.toNat then
    some (s!"Tree nodes length {d.nodes.length} does not match max_escrow {d.maxEscrows.toNat}",
      [])
  else none

def recipientComplaint (d : Distribution) : Option (String × Fields) :=
  if (d.records.map (·.recipient)).Nodup then none else some ("Duplicate recipient found", [])

/-- The totals of the records add up to the promised amount. -/
def claimComplaint (d : Distribution) : Option (String × Fields) :=
  match Batch.total d.records with
  | .error refusal => some (refusal.message, [])
  | .ok amount =>
    if amount ≠ d.maxClaim.toNat then
      some (s!"Tree nodes max_claim_amount {amount} does not match {d.maxClaim.toNat}", [])
    else none

/-- The root is the one of the records. -/
def rootComplaint (d : Distribution) : Option (String × Fields) :=
  match d.tree with
  | .error refusal => some (refusal.message, [])
  | .ok tree =>
    if tree.root ≠ d.root then
      some ("Merkle root is invalid given nodes",
        [("expected", .text (toHex d.root)), ("actual", .text (toHex tree.root))])
    else none

/-- Whether a node's proof leads to a root. -/
def proves (root : Bytes) (n : Node) : Bool :=
  match n.proof with
  | none => false
  | some siblings => Inclusion.holds n.record siblings root

/-- Every node has a proof that leads to the root. -/
def proofComplaint (d : Distribution) : Option (String × Fields) :=
  match d.nodes.filter fun n => !proves d.root n with
  | [] => none
  | bad =>
    some (s!"{bad.length} node(s) carry an invalid merkle proof",
      [("recipients", .texts (bad.map fun n => n.record.recipient.toHex))])

/-- The checks of an audit, in order. -/
def auditChecks (d : Distribution) : List Check := [
  checkFor "node_limit" d.limitComplaint,
  checkFor "node_count" d.countComplaint,
  checkFor "unique_recipients" d.recipientComplaint,
  checkFor "claim_amount" d.claimComplaint,
  checkFor "merkle_root" d.rootComplaint,
  checkFor "node_proofs" d.proofComplaint]

def audit (d : Distribution) : Verdict := .ofChecks d.auditChecks

/-- The refusal of a distribution that failed its audit: it shows the first complaint and
lists all. -/
def inconsistent (messages : List String) : Refusal :=
  .inconsistentTree (messages.headD "") [("errors", .texts messages)]

/-- Refuse a distribution that fails its audit. -/
def validate (d : Distribution) : Except Refusal Unit :=
  let verdict := d.audit
  if verdict.ok then .ok () else .error (inconsistent verdict.messages)

end Vesting.Distribution
