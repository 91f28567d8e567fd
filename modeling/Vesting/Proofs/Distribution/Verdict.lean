/-
# What a verdict says

An audit asks six questions of a distribution, whatever else is wrong with it: it may have no
nodes at all, recipients that are listed twice, records that make no sense, totals out of
range, no proofs, or proofs of any kind. Main statement: the verdict answers all six, in order
and each by itself; it is good exactly if all answers are; and validation passes exactly what
the audit does, and otherwise refuses with the messages of the checks that failed, in order.

On the way the totals are summed and a tree is built, and either may be refused. A sum is
refused for nothing but an overflow, and that the leaves of records are no hashes cannot
happen, so what is refused there always ends in a failed check.
-/

import Mathlib.Data.List.Forall2
import Vesting.Proofs.Batch
import Vesting.Proofs.Distribution.Audit
import Vesting.Proofs.Merkle.Completeness

namespace Vesting

open Merkle

/-- The leaves of a tree determine its root. -/
theorem Merkle.Tree.root_eq_of_leaves_eq {t u : Tree} (same : t.leaves = u.leaves) :
    t.root = u.root := by
  have reached := t.top_layers_eq_root
  rw [t.layers_eq, same, ← u.layers_eq, u.top_layers_eq_root] at reached
  exact (Option.some.inj reached).symm

/-- The leaves of records are hashes, so there is a tree over them. -/
theorem Batch.exists_ofLeaves_eq_ok {records : List Record} (nonempty : records ≠ []) :
    ∃ tree : Merkle.Tree, Tree.ofLeaves (records.map Record.leaf) = .ok tree := by
  have leaves : records.map Record.leaf ≠ [] := by simpa using nonempty
  obtain ⟨tree, built, -⟩ := Tree.exists_ofLeaves_eq_ok leaves (sized_leaves records)
  exact ⟨tree, built⟩

namespace Distribution

/-- What an audit asks: the name of a check, and when it is to hold. -/
structure Question where
  name : String
  good : Prop

/-- The questions of an audit, in order. -/
def questions (d : Distribution) : List Question := [
  ⟨"node_limit", d.maxEscrows.toNat ≤ 2 ^ 32 - 1⟩,
  ⟨"node_count", d.maxEscrows.toNat = d.nodes.length⟩,
  ⟨"unique_recipients", d.nodes.Pairwise fun n m => n.record.recipient ≠ m.record.recipient⟩,
  ⟨"claim_amount",
    Batch.amount d.records ≤ 2 ^ 64 - 1 ∧ Batch.amount d.records = d.maxClaim.toNat⟩,
  ⟨"merkle_root", d.nodes ≠ [] ∧ (∀ n ∈ d.nodes, n.record.Sensible) ∧
    ∃ tree : Merkle.Tree, tree.leaves = d.records.map Record.leaf ∧ tree.root = d.root⟩,
  ⟨"node_proofs", ∀ n ∈ d.nodes, ∃ siblings : List Bytes,
    n.proof = some siblings ∧ foldPath n.record.leaf siblings = d.root⟩]

/-- A check answers a question: it has its name, and it holds exactly if all is good. -/
structure Answers (c : Check) (q : Question) : Prop where
  name : c.id = q.name
  holds : c.ok = true ↔ q.good

variable {d : Distribution}

theorem answers_checkFor {name : String} {complaint : Option (String × Fields)} {good : Prop}
    (none_iff : complaint = none ↔ good) : Answers (checkFor name complaint) ⟨name, good⟩ where
  name := by cases complaint <;> rfl
  holds := ok_checkFor.trans none_iff

theorem distinct_iff : (d.records.map (·.recipient)).Nodup ↔
    d.nodes.Pairwise fun n m => n.record.recipient ≠ m.record.recipient := by
  rw [Distribution.records, List.map_map, List.Nodup, List.pairwise_map]
  rfl

theorem claim_iff : Batch.amount d.records = d.maxClaim.toNat ↔
    Batch.amount d.records ≤ 2 ^ 64 - 1 ∧ Batch.amount d.records = d.maxClaim.toNat := by
  constructor
  · intro same
    exact ⟨same ▸ word_le_wordMax d.maxClaim, same⟩
  · exact And.right

theorem root_iff : (∃ tree : Merkle.Tree, Batch.tree d.records = .ok tree ∧ tree.root = d.root) ↔
    d.nodes ≠ [] ∧ (∀ n ∈ d.nodes, n.record.Sensible) ∧
      ∃ tree : Merkle.Tree, tree.leaves = d.records.map Record.leaf ∧ tree.root = d.root := by
  have issuable : (d.records ≠ [] ∧ ∀ r ∈ d.records, r.Sensible) ↔
      d.nodes ≠ [] ∧ ∀ n ∈ d.nodes, n.record.Sensible := by
    simp [Distribution.records]
  constructor
  · rintro ⟨tree, built, root⟩
    obtain ⟨nonempty, sensible⟩ := issuable.1 (Batch.exists_tree_iff.1 ⟨tree, built⟩)
    exact ⟨nonempty, sensible, tree, Batch.leaves_of_tree_eq_ok built, root⟩
  · rintro ⟨nonempty, sensible, tree, leaves, root⟩
    obtain ⟨other, built⟩ := Batch.exists_tree_iff.2 (issuable.2 ⟨nonempty, sensible⟩)
    have same := Batch.leaves_of_tree_eq_ok built
    exact ⟨other, built, (Tree.root_eq_of_leaves_eq (same.trans leaves.symm)).trans root⟩

/-- Every check of an audit answers its question. -/
theorem answers_audit (d : Distribution) : List.Forall₂ Answers d.audit.checks d.questions := by
  rw [audit, Verdict.checks_ofChecks, auditChecks, questions]
  refine .cons (answers_checkFor limitComplaint_eq_none_iff) (.cons ?_ (.cons ?_ (.cons ?_
    (.cons ?_ (.cons ?_ .nil)))))
  · exact answers_checkFor (countComplaint_eq_none_iff.trans eq_comm)
  · exact answers_checkFor (recipientComplaint_eq_none_iff.trans distinct_iff)
  · exact answers_checkFor (claimComplaint_eq_none_iff.trans claim_iff)
  · exact answers_checkFor (rootComplaint_eq_none_iff.trans root_iff)
  · apply answers_checkFor
    simpa only [Inclusion.holds, beq_iff_eq] using proofComplaint_eq_none_iff

/-- A bad verdict has a message to show. -/
theorem messages_ne_nil (bad : d.audit.ok = false) : d.audit.messages ≠ [] := by
  rw [audit, Verdict.ok_ofChecks, List.all_eq_false] at bad
  obtain ⟨c, member, failed⟩ := bad
  intro none
  have unfailed : d.audit.failures = [] := List.map_eq_nil_iff.1 none
  rw [Verdict.failures, audit, Verdict.checks_ofChecks, List.filter_eq_nil_iff] at unfailed
  exact unfailed c member (by simpa using failed)

/-- The totals of any records can only leave the range of words, and records always have
leaves that are hashes, so an audit always comes to a verdict. It answers each of the six
questions by the check of that name, in order; it is good exactly if all checks hold, and then
validation passes. Otherwise validation refuses with the messages of the failed checks, in
order, the first of them in front. -/
theorem audit_exact (d : Distribution) :
    (∀ refusal : Refusal, Batch.total d.records = .error refusal →
        ∃ (message : String) (details : Fields), refusal = .mathOverflow message details) ∧
      (d.records ≠ [] →
        ∃ tree : Merkle.Tree, Tree.ofLeaves (d.records.map Record.leaf) = .ok tree) ∧
      List.Forall₂ Answers d.audit.checks d.questions ∧
      (d.audit.ok = true ↔ ∀ c ∈ d.audit.checks, c.ok = true) ∧
      (d.audit.ok = true → d.validate = .ok ()) ∧
      (d.audit.ok = false → ∃ (first : String) (rest : List String),
        (d.audit.checks.filter fun c => !c.ok).map (·.message) = first :: rest ∧
        d.validate = .error (.inconsistentTree first [("errors", .texts (first :: rest))])) := by
  refine ⟨fun _ => Batch.exists_mathOverflow_of_sumFrom_eq_error, Batch.exists_ofLeaves_eq_ok,
    answers_audit d, ?_, ?_, ?_⟩
  · rw [audit, Verdict.ok_ofChecks, Verdict.checks_ofChecks, List.all_eq_true]
  · intro good
    exact validate_of_consistent (ok_audit_iff.1 good)
  · intro bad
    obtain ⟨first, rest, messages⟩ := List.exists_cons_of_ne_nil (messages_ne_nil bad)
    refine ⟨first, rest, messages, ?_⟩
    simp only [validate, bad, messages, Bool.false_eq_true, if_false, inconsistent,
      List.headD_cons]

end Distribution

end Vesting
