/-
# Every leaf has a proof

A tree hands out a path for each of its leaves, and for no other place. Main statement:
over any leaves that are hashes, repeated or not, a tree is built, the path of each leaf
consists of nodes of the tree and leads from the leaf to the root, and asking for a leaf
that does not exist is answered by naming the place and the number of leaves.

The path is found by halving places, the layers by pairing nodes. That the two agree for
every number of leaves, also where one node is carried through several layers, is the
general law about layers whose nodes are combined in either order.
-/

import Vesting.Proofs.Merkle.Layers
import Vesting.Proofs.Merkle.Parent

namespace Vesting.Merkle

namespace Tree

/-- The root is the node of the last layer. -/
theorem top_layers_eq_root (t : Tree) : top t.layers = some t.root :=
  (Option.some_get _).symm

theorem proof_of_lt {t : Tree} {i : Nat} (inside : i < t.count) :
    t.proof i = .ok (path t.layers i) := by
  have within : (0 : Int) ≤ i ∧ (i : Int) < t.count := by omega
  rw [proof, if_pos within, Int.toNat_natCast]

theorem proof_of_outside {t : Tree} {index : Int} (outside : index < 0 ∨ t.count ≤ index) :
    t.proof index = .error ⟨index, t.count⟩ := by
  have beyond : ¬ (0 ≤ index ∧ index < t.count) := by omega
  rw [proof, if_neg beyond]

/-- The path of a leaf leads from it to the root. -/
theorem foldPath_path {t : Tree} {i : Nat} {leaf : Bytes} (found : t.leaves[i]? = some leaf) :
    foldPath leaf (path t.layers i) = t.root := by
  have reached := t.top_layers_eq_root
  rw [t.layers_eq, top_layers_eq_fold_path parent parent_comm found, ← t.layers_eq] at reached
  exact Option.some.inj reached

/-- Every node is a hash. -/
theorem length_of_mem_layers {t : Tree} {level : List Bytes} (member : level ∈ t.layers)
    {node : Bytes} (inside : node ∈ level) : node.length = hashSize := by
  rw [t.layers_eq] at member
  exact forall_mem_layers parent (P := fun node => node.length = hashSize)
    (fun a b _ _ => length_parent a b) t.sized level member node inside

theorem length_root (t : Tree) : t.root.length = hashSize := by
  obtain ⟨level, layer, node⟩ := exists_mem_of_top_eq_some t.top_layers_eq_root
  exact length_of_mem_layers layer node

theorem firstMisfit_eq_none {leaves : List Bytes} (sized : ∀ leaf ∈ leaves, leaf.length = hashSize)
    (index : Nat) : firstMisfit index leaves = none := by
  induction leaves generalizing index with
  | nil => rfl
  | cons leaf rest ih =>
      obtain ⟨first, others⟩ := List.forall_mem_cons.1 sized
      rw [firstMisfit, if_pos first]
      exact ih others (index + 1)

/-- There is a tree over leaves that are hashes. -/
theorem exists_ofLeaves_eq_ok {leaves : List Bytes} (nonempty : leaves ≠ [])
    (sized : ∀ leaf ∈ leaves, leaf.length = hashSize) :
    ∃ t : Tree, ofLeaves leaves = .ok t ∧ t.leaves = leaves := by
  unfold ofLeaves
  rw [dif_neg nonempty]
  split
  · next index size misfit =>
      rw [firstMisfit_eq_none sized] at misfit
      exact absurd misfit (by simp)
  · exact ⟨_, rfl, rfl⟩

end Tree

/-- Over leaves that are hashes there is a tree in which each leaf has a path of nodes that
leads to the root, and no other place has one. -/
theorem proof_complete {leaves : List Bytes} (nonempty : leaves ≠ [])
    (sized : ∀ leaf ∈ leaves, leaf.length = hashSize) :
    ∃ t : Tree, Tree.ofLeaves leaves = .ok t ∧
      (∀ (i : Nat) (inside : i < leaves.length), ∃ siblings : List Bytes,
        t.proof i = .ok siblings ∧
        (∀ sibling ∈ siblings, sibling.length = hashSize ∧
          ∃ level ∈ t.layers, sibling ∈ level) ∧
        foldPath leaves[i] siblings = t.root ∧
        t.inclusion i = .ok ⟨leaves[i], siblings, t.root⟩ ∧
        Inclusion.holds ⟨leaves[i], siblings, t.root⟩ = true) ∧
      ∀ index : Int, index < 0 ∨ leaves.length ≤ index →
        t.proof index = .error ⟨index, leaves.length⟩ ∧
          t.inclusion index = .error ⟨index, leaves.length⟩ := by
  obtain ⟨t, built, rfl⟩ := Tree.exists_ofLeaves_eq_ok nonempty sized
  refine ⟨t, built, ?_, ?_⟩
  · intro i inside
    have proved : t.proof i = .ok (path t.layers i) := Tree.proof_of_lt inside
    have leads : foldPath t.leaves[i] (path t.layers i) = t.root :=
      Tree.foldPath_path (List.getElem?_eq_getElem inside)
    refine ⟨path t.layers i, proved, ?_, leads, ?_, beq_iff_eq.2 leads⟩
    · intro sibling member
      obtain ⟨level, layer, node⟩ := exists_mem_of_mem_path member
      exact ⟨Tree.length_of_mem_layers layer node, level, layer, node⟩
    · have leaf : t.leaves.getD i [] = t.leaves[i] := by
        rw [List.getD_eq_getElem?_getD, List.getElem?_eq_getElem inside, Option.getD_some]
      rw [Tree.inclusion, proved, Int.toNat_natCast, leaf]
      rfl
  · intro index outside
    have refused : t.proof index = .error ⟨index, t.leaves.length⟩ :=
      Tree.proof_of_outside outside
    refine ⟨refused, ?_⟩
    rw [Tree.inclusion, refused]
    rfl

/-- Two equal hashes, and a third that is carried up past their parent. -/
def carriedLeaves : List Bytes := [List.replicate 32 1, List.replicate 32 1, List.replicate 32 2]

theorem proof_complete_carriedLeaves :
    carriedLeaves ≠ [] ∧ (∀ leaf ∈ carriedLeaves, leaf.length = hashSize) ∧
      ∃ t : Tree, Tree.ofLeaves carriedLeaves = .ok t ∧ ∃ siblings : List Bytes,
        t.proof 2 = .ok siblings ∧ foldPath (List.replicate 32 2) siblings = t.root ∧
        t.proof 3 = .error ⟨3, 3⟩ := by
  refine ⟨by decide, by decide, ?_⟩
  have nonempty : carriedLeaves ≠ [] := by decide
  obtain ⟨t, built, inside, outside⟩ := proof_complete nonempty (by decide)
  obtain ⟨siblings, proved, -, leads, -⟩ := inside 2 (by decide)
  exact ⟨t, built, siblings, proved, leads, (outside 3 (by decide)).1⟩

end Vesting.Merkle
