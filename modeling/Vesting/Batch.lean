/-
# Batches of records

A batch is the list of records that one grant commits to. Before it becomes a tree its
records are checked in order: no recipient twice, no violated invariant, no total out of
range, none of zero. The first offending record decides the refusal. A batch that skips
these checks can still be turned into a tree as long as no record violates an invariant.
-/

import Vesting.Merkle.Tree
import Vesting.Record

namespace Vesting

/-- What marks a hash as one of a record: it is put in front of the hashed encoding. -/
def leafPrefix : Bytes := [0]

/-- The leaf that stands for a record. -/
def Record.leaf (r : Record) : Bytes := sha256 (leafPrefix ++ sha256 r.encode)

namespace Batch

/-- A violation in a batch: the place of the record, the record, and what is wrong. -/
abbrev Violation := Nat × Record × Record.Violation

/-- The violations in a batch, from record `index` on. -/
def violationsFrom : Nat → List Record → List Violation
  | _, [] => []
  | index, r :: rest => r.violations.map (fun v => (index, r, v)) ++ violationsFrom (index + 1) rest

/-- All violations in a batch, in order. -/
def violations (records : List Record) : List Violation := violationsFrom 0 records

/-- The report about a violation in a batch. -/
def report (v : Violation) : Report := v.2.2.report v.2.1 (some v.1)

/-- The reports about all violations in a batch. -/
def reports (records : List Record) : List Report := (violations records).map report

/-- The sum of the totals leaves the range of words at a record. -/
def sumOverflow (r : Record) : Refusal :=
  .mathOverflow "Total claim amount overflows u64" [("recipient", .text r.recipient.toHex)]

/-- Add the totals of records to a sum that is in range. -/
def sumFrom : Nat → List Record → Except Refusal Nat
  | sum, [] => .ok sum
  | sum, r :: rest =>
    match r.total with
    | .error refusal => .error refusal
    | .ok amount =>
      if Record.wordMax < sum + amount then .error (sumOverflow r)
      else sumFrom (sum + amount) rest

/-- The sum of the totals of a batch. -/
def total (records : List Record) : Except Refusal Nat := sumFrom 0 records

/-- The record at a place entitles its recipient to nothing. -/
def zeroTotal (index : Nat) (r : Record) : Refusal :=
  .invalidParams s!"{r.recipient.toHex} has a zero total amount"
    [("record_index", .int index), ("recipient", .text r.recipient.toHex)]

/-- Check one record behind those with the recipients `seen`. -/
def checkRecord (index : Nat) (seen : List Recipient) (r : Record) : Except Refusal Unit :=
  if seen.contains r.recipient then .error (.duplicateRecipient r.recipient.toHex)
  else match r.violations with
    | v :: _ => .error (report (index, r, v)).toRefusal
    | [] =>
      match r.total with
      | .error refusal => .error refusal
      | .ok amount => if amount = 0 then .error (zeroTotal index r) else .ok ()

/-- Check the records from place `index` on, behind those with the recipients `seen`. -/
def checkFrom : Nat → List Recipient → List Record → Except Refusal Unit
  | _, _, [] => .ok ()
  | index, seen, r :: rest =>
    match checkRecord index seen r with
    | .error refusal => .error refusal
    | .ok () => checkFrom (index + 1) (r.recipient :: seen) rest

/-- Check a batch before it becomes a tree. -/
def check (records : List Record) : Except Refusal Unit := checkFrom 0 [] records

/-- The refusal of a batch with violations: it shows the first and lists all. -/
def invalid (first : Violation) (all : List Violation) : Refusal :=
  .invalidRecord s!"Record {first.1} is invalid: {(report first).message}"
    (some first.1) (some first.2.2.field)
    [("error_count", .int all.length),
      ("errors", .list (all.map fun v => .object (report v).presentFields))]

/-- The leaves of a batch are hashes. -/
theorem sized_leaves (records : List Record) :
    ∀ leaf ∈ records.map Record.leaf, leaf.length = hashSize := by
  intro leaf member
  obtain ⟨r, _, rfl⟩ := List.mem_map.1 member
  exact length_sha256 _

/-- The tree over a batch without violations. -/
def tree (records : List Record) : Except Refusal Merkle.Tree :=
  if empty : records = [] then .error (.emptyInput Refusal.emptyMessage)
  else match violations records with
    | first :: rest => .error (invalid first (first :: rest))
    | [] =>
      .ok { leaves := records.map Record.leaf
            nonempty := by simpa using empty
            sized := sized_leaves records }

end Batch

end Vesting
