/-
# Proofs are unique

Main statement: siblings that are hashes and lead from a record to the root of a batch are
the proof that the tree hands out for a place of the record, sibling for sibling, unless
two byte strings that are hashed collide. A record that is listed more than once has a
proof for each of its places. None of them can be cut short or drawn out, nor can any
siblings be left out of it: with what is beside the path, a proof accounts for every record
of the batch once.
-/

import Mathlib.Data.List.Flatten
import Vesting.Proofs.Inclusion.Soundness
import Vesting.Proofs.Merkle.Layout

namespace Vesting

open Merkle

namespace Merkle.Layout

/-- How many records a layout lists. -/
def size (t : Layout) : Nat := t.records.length

theorem size_node (left right : Layout) : (node left right).size = left.size + right.size := by
  rw [size, records, List.length_append]
  rfl

theorem foldl_map_size (n : Nat) (ts : List Layout) :
    (ts.map size).foldl (· + ·) n = n + (ts.flatMap records).length := by
  induction ts generalizing n with
  | nil => rfl
  | cons t ts ih =>
      rw [List.map_cons, List.foldl_cons, ih, List.flatMap_cons, List.length_append, size,
        Nat.add_assoc]

/-- The layouts beside a path list all records but the one at its place. -/
theorem length_flatMap_records_path {batch : List Record} {i : Nat} {r : Record}
    (place : batch[i]? = some r) :
    1 + ((path (Merkle.layers node (leaves batch)) i).flatMap records).length =
      batch.length := by
  -- Sizes are added where layouts are combined, so the law of paths holds for them too.
  have found : ((leaves batch).map size)[i]? = some 1 := by
    rw [leaves, List.getElem?_map, List.getElem?_map, place]
    rfl
  have reached := top_layers_eq_fold_path (· + ·) Nat.add_comm found
  rw [layers_map node (· + ·) size size_node, top_map, path_map] at reached
  obtain ⟨t, top, total⟩ := Option.map_eq_some_iff.1 reached
  rw [size, records_of_top_eq_some top, flatMap_records_leaves] at total
  rw [total, fold, foldl_map_size]

/-- Layouts that list as many records as some of them do are no more than those. -/
theorem eq_of_sublist_of_length_eq {part whole : List Layout} (sub : part.Sublist whole)
    (same : (part.flatMap records).length = (whole.flatMap records).length) : part = whole := by
  induction sub with
  | slnil => rfl
  | cons t sub ih =>
      have fewer := (sub.flatMap records).length_le
      have listed := List.length_pos_iff.2 t.records_ne_nil
      rw [List.flatMap_cons, List.length_append] at same
      omega
  | cons_cons t sub ih =>
      rw [List.flatMap_cons, List.flatMap_cons, List.length_append, List.length_append] at same
      rw [ih (by omega)]

/-- The path of a place holds the digests of the layouts beside it. -/
theorem path_layers_eq_map_digest {batch : List Record} {tree : Tree}
    (built : Batch.tree batch = .ok tree) (i : Nat) :
    path tree.layers i = (path (Merkle.layers node (leaves batch)) i).map digest := by
  rw [Batch.layers_of_tree_eq_ok built, ← map_digest_leaves, layers_map_digest, path_map]

/-- Without a collision, layouts with the same digests list as many records. -/
theorem length_flatMap_records_eq {hashed : List Bytes} (safe : ¬ Collides hashed)
    {ts us : List Layout} (first : ∀ t ∈ ts, t.hashed ⊆ hashed)
    (second : ∀ u ∈ us, u.hashed ⊆ hashed) (same : ts.map digest = us.map digest) :
    (ts.flatMap records).length = (us.flatMap records).length := by
  induction ts generalizing us with
  | nil =>
      obtain rfl : us = [] := List.map_eq_nil_iff.1 same.symm
      rfl
  | cons t ts ih =>
      cases us with
      | nil => simp at same
      | cons u us =>
          obtain ⟨here, later⟩ := List.cons.inj same
          obtain ⟨head, tail⟩ := List.forall_mem_cons.1 first
          obtain ⟨head', tail'⟩ := List.forall_mem_cons.1 second
          have single := (records_perm_of_digest_eq safe head head' here).length_eq
          rw [List.flatMap_cons, List.flatMap_cons, List.length_append, List.length_append,
            ih tail tail' later, single]

/-- Without a collision, of two paths in the tree of a batch neither is a proper part of the
other one. -/
theorem path_eq_of_sublist {batch : List Record} {tree : Tree}
    (built : Batch.tree batch = .ok tree) {hashed : List Bytes} (safe : ¬ Collides hashed)
    (building : Batch.hashed batch ⊆ hashed) {i j : Nat} {r q : Record}
    (here : batch[i]? = some r) (there : batch[j]? = some q)
    (sub : (path tree.layers i).Sublist (path tree.layers j)) :
    path tree.layers i = path tree.layers j := by
  have inside : ∀ k, ∀ t ∈ path (Merkle.layers node (leaves batch)) k, t.hashed ⊆ hashed := by
    intro k t member
    obtain ⟨level, layer, inLevel⟩ := exists_mem_of_mem_path member
    exact List.Subset.trans (hashed_subset_of_mem_layers_leaves layer inLevel) building
  rw [path_layers_eq_map_digest built, path_layers_eq_map_digest built] at sub ⊢
  obtain ⟨part, sub, same⟩ := List.sublist_map_iff.1 sub
  have lists := length_flatMap_records_eq safe (inside i)
    (fun t member => inside j t (sub.subset member)) same
  have total := length_flatMap_records_path here
  have total' := length_flatMap_records_path there
  rw [same, eq_of_sublist_of_length_eq sub (by omega)]

end Merkle.Layout

namespace Inclusion

/-- Unless two byte strings that are hashed collide, siblings that are hashes and lead from a
record to the root of a batch are the proof for a place of the record, the leaf of the record
is no inner node, and no proof for the record is a proper part of the siblings or has them as
a proper part. -/
theorem proof_unique {records : List Record} {tree : Merkle.Tree}
    (built : Batch.tree records = .ok tree) {r : Record} {siblings : List Bytes}
    (sized : ∀ sibling ∈ siblings, sibling.length = hashSize)
    (accepted : holds r siblings tree.root = true) :
    Collides (Batch.hashed records ++ hashed r siblings) ∨
      (∃ i : Nat, records[i]? = some r ∧ tree.proof i = .ok siblings) ∧
      (∀ level ∈ tree.layers, ∀ (k : Nat) (a b : Bytes), level[2 * k]? = some a →
        level[2 * k + 1]? = some b → parent a b ≠ r.leaf) ∧
      ∀ (j : Nat) (path : List Bytes), records[j]? = some r → tree.proof j = .ok path →
        siblings.Sublist path ∨ path.Sublist siblings → siblings = path := by
  by_cases clash : Collides (Batch.hashed records ++ hashed r siblings)
  · exact Or.inl clash
  obtain ⟨i, place, rfl⟩ := exists_path_of_holds built clash sized accepted
  right
  refine ⟨⟨i, place, Batch.proof_of_getElem? built place⟩, ?_, ?_⟩
  · intro level layer k a b left right same
    rw [Batch.layers_of_tree_eq_ok built] at layer
    have pair : joined a b ∈ layersHashed (Merkle.layers parent (records.map Record.leaf)) :=
      List.mem_flatMap.2 ⟨level, layer, joined_mem_pairsHashed left right⟩
    rw [parent_eq_sha256_joined] at same
    exact leaf_ne_sha256_of_mem_layersHashed clash pair same.symm
  · intro j path there proved comparable
    rw [Batch.proof_of_getElem? built there] at proved
    obtain rfl := Except.ok.inj proved
    have building := List.subset_append_left (Batch.hashed records)
      (hashed r (Merkle.path tree.layers i))
    rcases comparable with shorter | longer
    · exact Layout.path_eq_of_sublist built clash building place there shorter
    · exact (Layout.path_eq_of_sublist built clash building there place longer).symm

/-- A batch that lists a record twice, the second time carried up past the first pair. -/
def repeatedBatch : List Record := [Record.ofAccount 1, Record.ofAccount 2, Record.ofAccount 1]

theorem proof_unique_repeatedBatch :
    ∃ (tree : Merkle.Tree) (siblings : List Bytes), Batch.tree repeatedBatch = .ok tree ∧
      (∀ sibling ∈ siblings, sibling.length = hashSize) ∧
      holds (Record.ofAccount 1) siblings tree.root = true ∧
      (Collides (Batch.hashed repeatedBatch ++ hashed (Record.ofAccount 1) siblings) ∨
        ∃ i : Nat, repeatedBatch[i]? = some (Record.ofAccount 1) ∧
          tree.proof i = .ok siblings) := by
  obtain ⟨tree, built⟩ : ∃ tree, Batch.tree repeatedBatch = .ok tree := ⟨_, rfl⟩
  have place : repeatedBatch[2]? = some (Record.ofAccount 1) := rfl
  have sized : ∀ sibling ∈ path tree.layers 2, sibling.length = hashSize := by
    intro sibling member
    obtain ⟨level, layer, inside⟩ := exists_mem_of_mem_path member
    exact Tree.length_of_mem_layers layer inside
  have accepted : holds (Record.ofAccount 1) (path tree.layers 2) tree.root = true :=
    beq_iff_eq.2 (Tree.foldPath_path (Batch.getElem?_leaves built place))
  refine ⟨tree, path tree.layers 2, built, sized, accepted, ?_⟩
  exact (proof_unique built sized accepted).imp_right fun unique => unique.1

end Inclusion

end Vesting
