/-
# Distributions

A distribution is what a batch grant hands out: every record together with the proof its
recipient claims with, the committed root, and the totals that a grant is opened with.
Its nodes keep the order of the records. A distribution that was read from a file may
contradict itself; auditing it is a separate matter.
-/

import Vesting.Batch
import Vesting.Failure
import Vesting.Json.Printer
import Vesting.Key

namespace Vesting

/-- A committed record and the proof that its recipient claims with, leaf layer first. -/
structure Node where
  record : Record
  proof : Option (List Bytes)
  deriving DecidableEq

def proofValue : Option (List Bytes) → Value
  | none => .null
  | some siblings => .list (siblings.map fun sibling => .text (toHex sibling))

/-- A node as fields: those of its record, and the proof. -/
def Node.fields (n : Node) : Fields := n.record.fields ++ [("proof", proofValue n.proof)]

/-- A batch grant's nodes with the root and the totals that they are committed under. -/
structure Distribution where
  root : Bytes
  version : UInt64
  maxClaim : UInt64
  maxEscrows : UInt64
  nodes : List Node
  deriving DecidableEq

namespace Distribution

/-- The most nodes: a tree has a height of at most thirty-two. -/
def maxNodes : Nat := 0xffffffff

def fields (d : Distribution) : Fields := [
  ("merkle_root", .text (toHex d.root)),
  ("version", Record.ofWord d.version),
  ("max_claim_amount", Record.ofWord d.maxClaim),
  ("max_escrow", Record.ofWord d.maxEscrows),
  ("tree_nodes", .list (d.nodes.map fun n => .object n.fields))]

/-- The text of the file of a distribution. -/
def toText (d : Distribution) : String := (Value.object d.fields).toJson .file

/-- The records without their proofs, in order. -/
def records (d : Distribution) : List Record := d.nodes.map (·.record)

/-- The tree over the records as they are stored. -/
def tree (d : Distribution) : Except Refusal Merkle.Tree := Batch.tree d.records

def find? (d : Distribution) (recipient : Bytes) : Option Node :=
  d.nodes.find? fun n => n.record.recipient.bytes == recipient

/-- The first node of a named recipient. -/
def node (d : Distribution) (key : Key) : Except Failure Node :=
  match key.bytes? with
  | .error fault => .error (.notHex fault)
  | .ok recipient =>
    match d.find? recipient with
    | some n => .ok n
    | none => .error (.refused (.recipientNotFound key.shown))

/-- Let a recipient's entry be `n`: in its place if there is one, at the end otherwise. -/
def putEntry (entries : List (Recipient × Node)) (n : Node) : List (Recipient × Node) :=
  if entries.any (·.1 == n.record.recipient) then
    entries.map fun entry => if entry.1 == n.record.recipient then (entry.1, n) else entry
  else entries ++ [(n.record.recipient, n)]

/-- The nodes by recipient; of a repeated recipient the last node counts. -/
def byRecipient (d : Distribution) : List (Recipient × Node) := d.nodes.foldl putEntry []

end Distribution

end Vesting
