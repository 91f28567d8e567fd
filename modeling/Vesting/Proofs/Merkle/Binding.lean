/-
# A root binds its batch

Main statement: two batches with the same root are reorderings of each other, unless two
byte strings that are hashed for their trees collide. So whoever adds, removes or alters a
record changes the root, and the plan of a rotation is refused as changing nothing only if
the new batch is a reordering of the committed one.
-/

import Vesting.Proofs.Amendment.Difference
import Vesting.Proofs.Distribution.Build
import Vesting.Proofs.Merkle.Layout

namespace Vesting

namespace Amendment

/-- On the way to a distribution only its root can be at fault. -/
theorem root_eq_of_toward_eq_error {currentRoot : Bytes} {d : Distribution} {new : List Record}
    {old : Option (List Record)} {refusal : Refusal}
    (refused : toward currentRoot d new old = .error refusal) : currentRoot = d.root := by
  unfold toward at refused
  split at refused
  · next same => exact beq_iff_eq.1 same
  · cases old with
    | none => cases refused
    | some old => cases refused

/-- A plan that is refused for its root has built a tree with the root that is left. -/
theorem exists_tree_of_planAs_eq_duplicateRoot {currentRoot : Bytes}
    {new : List Record} {version : Value} {old : Option (List Record)} {text : String}
    (refused : planAs currentRoot new version old = .error (.refused (.duplicateRoot text))) :
    ∃ tree : Merkle.Tree, Batch.tree new = .ok tree ∧ currentRoot = tree.root := by
  unfold planAs at refused
  rcases Distribution.buildAs_cases new version with
    ⟨d, tree, built, grown, root⟩ | ⟨failure, failed, kind⟩
  · simp only [built] at refused
    refine ⟨tree, grown, ?_⟩
    cases reached : toward currentRoot d new old with
    | error refusal => rw [root_eq_of_toward_eq_error reached, root]
    | ok amendment =>
        rw [reached] at refused
        cases refused
  · simp only [failed, Except.error.injEq] at refused
    have other := kind _ refused
    cases other

end Amendment

namespace Merkle

/-- Batches with the same root are reorderings of each other, or there is a collision. -/
theorem perm_or_collides_of_root_eq {records others : List Record} {tree tree' : Tree}
    (built : Batch.tree records = .ok tree) (built' : Batch.tree others = .ok tree')
    (same : tree.root = tree'.root) :
    records.Perm others ∨ Collides (Batch.hashed records ++ Batch.hashed others) := by
  by_cases clash : Collides (Batch.hashed records ++ Batch.hashed others)
  · exact Or.inr clash
  obtain ⟨t, root, lists, hashes⟩ := Layout.exists_layout_of_tree_eq_ok built
  obtain ⟨t', root', lists', hashes'⟩ := Layout.exists_layout_of_tree_eq_ok built'
  left
  rw [← lists, ← lists']
  apply Layout.records_perm_of_digest_eq clash
  · exact List.subset_append_of_subset_left _ hashes
  · exact List.subset_append_of_subset_right _ hashes'
  · rw [root, root', same]

/-- The root of a batch binds it up to its order: another batch has the same root, or is
refused as a rotation that changes nothing, only if it is a reordering, unless two byte
strings that are hashed for the two trees collide. -/
theorem root_binds_batch {records : List Record} {tree : Tree}
    (built : Batch.tree records = .ok tree) :
    (∀ (others : List Record) (tree' : Tree), Batch.tree others = .ok tree' →
      tree.root = tree'.root →
      records.Perm others ∨ Collides (Batch.hashed records ++ Batch.hashed others)) ∧
    ∀ (new : List Record) (version : Value) (old : Option (List Record)) (text : String),
      Amendment.planAs tree.root new version old = .error (.refused (.duplicateRoot text)) →
      records.Perm new ∨ Collides (Batch.hashed records ++ Batch.hashed new) := by
  constructor
  · intro others tree' built' same
    exact perm_or_collides_of_root_eq built built' same
  · intro new version old text refused
    obtain ⟨tree', built', same⟩ := Amendment.exists_tree_of_planAs_eq_duplicateRoot refused
    exact perm_or_collides_of_root_eq built built' same

/-- Two leaves have their parent as root. -/
theorem root_eq_parent {t : Tree} {a b : Bytes} (pair : t.leaves = [a, b]) :
    t.root = parent a b := by
  have reached := t.top_layers_eq_root
  rw [t.layers_eq, pair] at reached
  exact (Option.some.inj reached).symm

/-- Two records in the other order. -/
def swapped : List Record := [.ofAccount 2, .ofAccount 1]

theorem acceptable_swapped : Batch.Acceptable swapped where
  nonempty := by decide
  distinct := by decide
  sensible := by decide
  amount_pos := by decide
  amount_le := by decide

/-- Their tree has the same root, and a rotation to them is refused for it. -/
theorem root_binds_swapped :
    ∃ tree tree' : Tree,
      Batch.tree [Record.ofAccount 1, Record.ofAccount 2] = .ok tree ∧
      Batch.tree swapped = .ok tree' ∧
      tree.root = tree'.root ∧
      ([Record.ofAccount 1, Record.ofAccount 2].Perm swapped ∨
        Collides (Batch.hashed [Record.ofAccount 1, Record.ofAccount 2] ++
          Batch.hashed swapped)) ∧
      Amendment.planAs tree.root swapped (Record.ofWord 7) none =
        .error (.refused (.duplicateRoot (toHex tree.root))) ∧
      ([Record.ofAccount 1, Record.ofAccount 2].Perm swapped ∨
        Collides (Batch.hashed [Record.ofAccount 1, Record.ofAccount 2] ++
          Batch.hashed swapped)) := by
  obtain ⟨tree, built⟩ : ∃ tree, Batch.tree [Record.ofAccount 1, Record.ofAccount 2] = .ok tree :=
    ⟨_, rfl⟩
  obtain ⟨tree', built', given⟩ :=
    Distribution.buildAs_of_acceptable acceptable_swapped (by decide) 7
  have same : tree.root = tree'.root := by
    rw [root_eq_parent (Batch.leaves_of_tree_eq_ok built),
      root_eq_parent (Batch.leaves_of_tree_eq_ok built'), parent_comm]
  have refused : Amendment.planAs tree.root swapped (Record.ofWord 7) none =
      .error (.refused (.duplicateRoot (toHex tree.root))) := by
    rw [same]
    exact Amendment.planAs_of_same_root given none
  exact ⟨tree, tree', built, built', same, (root_binds_batch built).1 _ tree' built' same, refused,
    (root_binds_batch built).2 _ _ _ _ refused⟩

end Merkle

end Vesting
