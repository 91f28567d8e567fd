/-
# What an audit asks

Each of the six checks of an audit is said again without the audit's own functions: the
totals as exact sums, the root as that of the tree over the bare records, the proofs as
paths. Main statements: an audit is passed exactly by the distributions that are consistent
in this sense, and then all six checks are in the verdict, in order and without complaint.
-/

import Vesting.Distribution.Audit
import Vesting.Proofs.Batch.Acceptance

namespace Vesting

theorem word_le_wordMax (w : UInt64) : w.toNat ≤ Record.wordMax := Nat.le_of_lt_succ w.toNat_lt

namespace Distribution

/-- A distribution whose parts fit together. -/
structure Consistent (d : Distribution) : Prop where
  limit : d.maxEscrows.toNat ≤ maxNodes
  count : d.nodes.length = d.maxEscrows.toNat
  distinct : (d.records.map (·.recipient)).Nodup
  claim : Batch.amount d.records = d.maxClaim.toNat
  root : ∃ tree : Merkle.Tree, Batch.tree d.records = .ok tree ∧ tree.root = d.root
  proofs : ∀ n ∈ d.nodes, ∃ siblings : List Bytes,
    n.proof = some siblings ∧ Inclusion.holds n.record siblings d.root = true

variable {d : Distribution}

theorem limitComplaint_eq_none_iff :
    d.limitComplaint = none ↔ d.maxEscrows.toNat ≤ maxNodes := by
  simp [limitComplaint]

theorem countComplaint_eq_none_iff :
    d.countComplaint = none ↔ d.nodes.length = d.maxEscrows.toNat := by
  simp [countComplaint]

theorem recipientComplaint_eq_none_iff :
    d.recipientComplaint = none ↔ (d.records.map (·.recipient)).Nodup := by
  simp [recipientComplaint]

theorem claimComplaint_eq_none_iff :
    d.claimComplaint = none ↔ Batch.amount d.records = d.maxClaim.toNat := by
  unfold claimComplaint
  split
  · next refusal refused =>
      have beyond : Batch.amount d.records ≠ d.maxClaim.toNat := by
        intro same
        have given := Batch.total_eq_ok_iff.2 ⟨rfl, same ▸ word_le_wordMax d.maxClaim⟩
        rw [refused] at given
        cases given
      simp [beyond]
  · next amount given =>
      obtain ⟨rfl, -⟩ := Batch.total_eq_ok_iff.1 given
      simp

theorem rootComplaint_eq_none_iff :
    d.rootComplaint = none ↔
      ∃ tree : Merkle.Tree, Batch.tree d.records = .ok tree ∧ tree.root = d.root := by
  unfold rootComplaint Distribution.tree
  split
  · next refusal refused => simp [refused]
  · next tree built => simp [built]

theorem proves_iff {root : Bytes} {n : Node} :
    proves root n = true ↔ ∃ siblings : List Bytes,
      n.proof = some siblings ∧ Inclusion.holds n.record siblings root = true := by
  unfold proves
  cases n.proof <;> simp

theorem proofComplaint_eq_none_iff :
    d.proofComplaint = none ↔ ∀ n ∈ d.nodes, ∃ siblings : List Bytes,
      n.proof = some siblings ∧ Inclusion.holds n.record siblings d.root = true := by
  simp only [← proves_iff]
  unfold proofComplaint
  split
  · next none => simpa using none
  · next some => simpa using some

/-- The names of the checks of an audit, in order. -/
def checkNames : List String :=
  ["node_limit", "node_count", "unique_recipients", "claim_amount", "merkle_root", "node_proofs"]

theorem ok_checkFor {id : String} {complaint : Option (String × Fields)} :
    (checkFor id complaint).ok = true ↔ complaint = none := by
  cases complaint <;> simp [checkFor, Check.passed, Check.failed]

/-- An audit is passed exactly by a distribution whose parts fit together. -/
theorem ok_audit_iff : d.audit.ok = true ↔ d.Consistent := by
  rw [audit, Verdict.ok_ofChecks]
  simp only [auditChecks, List.all_cons, List.all_nil, Bool.and_true, Bool.and_eq_true,
    ok_checkFor, limitComplaint_eq_none_iff, countComplaint_eq_none_iff,
    recipientComplaint_eq_none_iff, claimComplaint_eq_none_iff, rootComplaint_eq_none_iff,
    proofComplaint_eq_none_iff]
  constructor
  · rintro ⟨limit, count, distinct, claim, root, proofs⟩
    exact ⟨limit, count, distinct, claim, root, proofs⟩
  · rintro ⟨limit, count, distinct, claim, root, proofs⟩
    exact ⟨limit, count, distinct, claim, root, proofs⟩

/-- The verdict on a distribution whose parts fit together names every check as passed. -/
theorem Consistent.audit_eq (consistent : d.Consistent) :
    d.audit = .success (checkNames.map .passed) := by
  rw [audit, auditChecks, limitComplaint_eq_none_iff.2 consistent.limit,
    countComplaint_eq_none_iff.2 consistent.count,
    recipientComplaint_eq_none_iff.2 consistent.distinct,
    claimComplaint_eq_none_iff.2 consistent.claim, rootComplaint_eq_none_iff.2 consistent.root,
    proofComplaint_eq_none_iff.2 consistent.proofs]
  rfl

theorem validate_of_consistent (consistent : d.Consistent) : d.validate = .ok () := by
  simp only [validate, ok_audit_iff.2 consistent, if_true]

theorem consistent_of_validate_eq_ok (valid : d.validate = .ok ()) : d.Consistent := by
  simp only [validate] at valid
  split at valid
  · next good => exact ok_audit_iff.1 good
  · cases valid

end Distribution

end Vesting
