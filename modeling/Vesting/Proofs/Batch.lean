/-
# Leaves of a batch

What is hashed for a batch, and how its tree, its leaves and its records belong together:
every record has its leaf at its own place, and a leaf determines its record unless two
byte strings collide.
-/

import Vesting.Batch
import Vesting.Proofs.Encoding
import Vesting.Proofs.Hashed

namespace Vesting

open Merkle

namespace Record

/-- What is hashed for the leaf of a record. -/
def hashed (r : Record) : List Bytes := [r.encode, leafPrefix ++ sha256 r.encode]

theorem encode_mem_hashed (r : Record) : r.encode ∈ r.hashed := List.mem_cons_self

theorem leaf_input_mem_hashed (r : Record) : leafPrefix ++ sha256 r.encode ∈ r.hashed :=
  List.mem_cons_of_mem _ List.mem_cons_self

theorem length_leaf_input (r : Record) : (leafPrefix ++ sha256 r.encode).length = 33 := by
  rw [List.length_append, length_sha256]
  rfl

@[simp] theorem length_leaf (r : Record) : r.leaf.length = hashSize := length_sha256 _

/-- Without a collision, records with the same leaf are the same. -/
theorem eq_of_leaf_eq {hashed : List Bytes} (safe : ¬ Collides hashed) {r q : Record}
    (left : r.hashed ⊆ hashed) (right : q.hashed ⊆ hashed) (same : r.leaf = q.leaf) : r = q := by
  have inputs := eq_of_sha256_eq safe (left r.leaf_input_mem_hashed)
    (right q.leaf_input_mem_hashed) same
  have digests : sha256 r.encode = sha256 q.encode := List.append_cancel_left inputs
  exact encode_inj
    (eq_of_sha256_eq safe (left r.encode_mem_hashed) (right q.encode_mem_hashed) digests)

/-- Without a collision, a leaf is no digest of what has another size than its input. -/
theorem leaf_ne_sha256 {hashed : List Bytes} (safe : ¬ Collides hashed) {r : Record}
    (left : r.hashed ⊆ hashed) {x : Bytes} (right : x ∈ hashed) (size : x.length ≠ 33) :
    r.leaf ≠ sha256 x := by
  intro same
  have input := eq_of_sha256_eq safe (left r.leaf_input_mem_hashed) right same
  exact size (input ▸ r.length_leaf_input)

end Record

namespace Batch

/-- What is hashed to build the tree over a batch. -/
def hashed (records : List Record) : List Bytes :=
  records.flatMap Record.hashed ++
    layersHashed (Merkle.layers parent (records.map Record.leaf))

theorem hashed_subset_of_mem {records : List Record} {r : Record} (member : r ∈ records) :
    r.hashed ⊆ hashed records := by
  intro x inside
  exact List.mem_append_left _ (List.mem_flatMap.2 ⟨r, member, inside⟩)

theorem layersHashed_subset_hashed (records : List Record) :
    layersHashed (Merkle.layers parent (records.map Record.leaf)) ⊆ hashed records :=
  List.subset_append_right _ _

variable {records : List Record} {tree : Merkle.Tree}

theorem leaves_of_tree_eq_ok (built : Batch.tree records = .ok tree) :
    tree.leaves = records.map Record.leaf := by
  unfold Batch.tree at built
  split at built
  · simp at built
  · split at built
    · simp at built
    · obtain rfl := Except.ok.inj built
      rfl

theorem layers_of_tree_eq_ok (built : Batch.tree records = .ok tree) :
    tree.layers = Merkle.layers parent (records.map Record.leaf) := by
  rw [tree.layers_eq, leaves_of_tree_eq_ok built]

theorem top_layers_of_tree_eq_ok (built : Batch.tree records = .ok tree) :
    top (Merkle.layers parent (records.map Record.leaf)) = some tree.root := by
  rw [← layers_of_tree_eq_ok built, tree.top_layers_eq_root]

/-- Every record of a batch has its leaf in the tree, at the same place. -/
theorem getElem?_leaves (built : Batch.tree records = .ok tree) {i : Nat} {r : Record}
    (place : records[i]? = some r) : tree.leaves[i]? = some r.leaf := by
  rw [leaves_of_tree_eq_ok built, List.getElem?_map, place, Option.map_some]

/-- Every record of a batch has a proof, the path of its place. -/
theorem proof_of_getElem? (built : Batch.tree records = .ok tree) {i : Nat} {r : Record}
    (place : records[i]? = some r) : tree.proof i = .ok (path tree.layers i) :=
  Tree.proof_of_lt (List.getElem?_eq_some_iff.1 (getElem?_leaves built place)).1

end Batch

/-- A record that makes sense as a grant, for an account of thirty-two equal bytes. -/
def Record.ofAccount (account : UInt8) : Record where
  recipient := ⟨List.replicate 32 account, List.length_replicate⟩
  start := 0
  cliff := 200
  frequency := 10
  cliffAmount := 100
  periodAmount := 100
  periods := 200
  updateMode := 0
  cancelMode := 0

end Vesting
