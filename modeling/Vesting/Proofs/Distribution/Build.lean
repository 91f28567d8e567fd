/-
# What building a distribution gives

A distribution that is built carries the root of the tree over its batch, whatever the
version is read from. None of the refusals on the way is about a root: that a root is the
committed one already is found by comparing it, after the distribution is there.
-/

import Vesting.Distribution.Build
import Vesting.Proofs.Batch.Total

namespace Vesting

/-- Whether a refusal says that a root is the committed one already. -/
def Refusal.isDuplicateRoot : Refusal → Bool
  | .duplicateRoot _ => true
  | _ => false

theorem Record.isDuplicateRoot_of_total_eq_error {r : Record} {refusal : Refusal}
    (refused : r.total = .error refusal) : refusal.isDuplicateRoot = false := by
  obtain ⟨message, details, rfl⟩ := r.exists_mathOverflow_of_total_eq_error refused
  rfl

namespace Batch

theorem isDuplicateRoot_of_checkRecord_eq_error {index : Nat} {seen : List Recipient} {r : Record}
    {refusal : Refusal} (refused : checkRecord index seen r = .error refusal) :
    refusal.isDuplicateRoot = false := by
  unfold checkRecord at refused
  split at refused
  · obtain rfl := Except.error.inj refused
    rfl
  · split at refused
    · obtain rfl := Except.error.inj refused
      rfl
    · split at refused
      · next total =>
          obtain rfl := Except.error.inj refused
          exact Record.isDuplicateRoot_of_total_eq_error total
      · split at refused
        · obtain rfl := Except.error.inj refused
          rfl
        · simp at refused

theorem isDuplicateRoot_of_checkFrom_eq_error {index : Nat} {seen : List Recipient}
    {records : List Record} {refusal : Refusal}
    (refused : checkFrom index seen records = .error refusal) :
    refusal.isDuplicateRoot = false := by
  induction records generalizing index seen with
  | nil => simp [checkFrom] at refused
  | cons r rest ih =>
      rw [checkFrom] at refused
      split at refused
      · next first =>
          obtain rfl := Except.error.inj refused
          exact isDuplicateRoot_of_checkRecord_eq_error first
      · exact ih refused

theorem isDuplicateRoot_of_sumFrom_eq_error {sum : Nat} {records : List Record}
    {refusal : Refusal} (refused : sumFrom sum records = .error refusal) :
    refusal.isDuplicateRoot = false := by
  obtain ⟨message, details, rfl⟩ := exists_mathOverflow_of_sumFrom_eq_error refused
  rfl

theorem isDuplicateRoot_of_tree_eq_error {records : List Record} {refusal : Refusal}
    (refused : Batch.tree records = .error refusal) : refusal.isDuplicateRoot = false := by
  unfold Batch.tree at refused
  split at refused
  · obtain rfl := Except.error.inj refused
    rfl
  · split at refused
    · obtain rfl := Except.error.inj refused
      rfl
    · simp at refused

end Batch

namespace Distribution

/-- The steps of an assembly: each of them gives a result or refuses for all. -/
theorem assemble_cases (records : List Record) (version : UInt64) :
    (∃ (tree : Merkle.Tree) (total : Nat), Batch.tree records = .ok tree ∧
      Batch.total records = .ok total ∧
      assemble records version =
        .ok ⟨tree.root, version, .ofNat total, .ofNat records.length, nodesOf tree records⟩) ∨
      ∃ refusal : Refusal, assemble records version = .error refusal ∧
        refusal.isDuplicateRoot = false := by
  unfold assemble
  cases empty : records.isEmpty with
  | true => exact Or.inr ⟨_, rfl, rfl⟩
  | false =>
      cases checked : Batch.check records with
      | error refusal =>
          exact Or.inr ⟨refusal, rfl, Batch.isDuplicateRoot_of_checkFrom_eq_error checked⟩
      | ok =>
          cases built : Batch.tree records with
          | error refusal =>
              exact Or.inr ⟨refusal, rfl, Batch.isDuplicateRoot_of_tree_eq_error built⟩
          | ok tree =>
              cases summed : Batch.total records with
              | error refusal =>
                  exact Or.inr ⟨refusal, rfl, Batch.isDuplicateRoot_of_sumFrom_eq_error summed⟩
              | ok total => exact Or.inl ⟨tree, total, rfl, rfl, rfl⟩

theorem isDuplicateRoot_of_validate_eq_error {d : Distribution} {refusal : Refusal}
    (refused : d.validate = .error refusal) : refusal.isDuplicateRoot = false := by
  simp only [validate] at refused
  split at refused
  · simp at refused
  · obtain rfl := Except.error.inj refused
    rfl

/-- A distribution is built under the root of the tree over its batch, or there is a failure
that is not about a root. -/
theorem buildAs_cases (records : List Record) (version : Value) :
    (∃ (d : Distribution) (tree : Merkle.Tree), buildAs records version = .ok d ∧
      Batch.tree records = .ok tree ∧ d.root = tree.root) ∨
      ∃ failure : Failure, buildAs records version = .error failure ∧
        ∀ refusal, failure = .refused refusal → refusal.isDuplicateRoot = false := by
  unfold buildAs assembleAs
  rcases assemble_cases records 0 with ⟨tree, total, grown, -, assembled⟩ | ⟨refusal, refused, kind⟩
  · simp only [assembled]
    cases read : ((Schema.word version).under (.field "version")).toExcept "VestingMerkleTree" with
    | error rejection =>
        right
        refine ⟨_, rfl, fun refusal same => ?_⟩
        cases same
    | ok word =>
        dsimp only
        split
        · next refusal refused =>
            right
            refine ⟨_, rfl, fun other same => ?_⟩
            cases same
            exact isDuplicateRoot_of_validate_eq_error refused
        · exact Or.inl ⟨_, tree, rfl, grown, rfl⟩
  · simp only [refused]
    right
    refine ⟨_, rfl, fun other same => ?_⟩
    cases same
    exact kind

end Distribution

end Vesting
