/-
# Layouts of trees

Layers keep the nodes of a tree and forget which of them came from which. A layout keeps
it: it is a record, or two layouts that were combined. Layers can be built of layouts as
well as of hashes, and taking digests leads from the one to the other, so every root is
the digest of a layout that lists the records of the batch in order.

Main statement: two layouts with the same digest list the same records as often as each
other, or else two byte strings that are hashed for them collide. The sizes and shapes of
the two need not agree beforehand; the induction is on one of them and takes the other
apart with it.
-/

import Vesting.Proofs.Batch

namespace Vesting.Merkle

/-- How a node came about: from a record, or by combining two nodes. -/
inductive Layout
  | leaf (record : Record)
  | node (left right : Layout)

namespace Layout

/-- The node that a layout stands for. -/
def digest : Layout → Bytes
  | leaf r => r.leaf
  | node left right => parent left.digest right.digest

/-- The records of a layout, from left to right. -/
def records : Layout → List Record
  | leaf r => [r]
  | node left right => left.records ++ right.records

/-- What is hashed for a layout. -/
def hashed : Layout → List Bytes
  | leaf r => r.hashed
  | node left right => joined left.digest right.digest :: (left.hashed ++ right.hashed)

@[simp] theorem length_digest (t : Layout) : t.digest.length = hashSize := by
  cases t with
  | leaf r => exact r.length_leaf
  | node left right => exact length_parent _ _

theorem records_ne_nil (t : Layout) : t.records ≠ [] := by
  induction t with
  | leaf r => exact List.cons_ne_nil _ _
  | node left right ihLeft _ => exact List.append_ne_nil_of_left_ne_nil ihLeft _

/-- Without a collision, a leaf is no combination of two nodes. -/
theorem leaf_ne_digest_node {hashed : List Bytes} (safe : ¬ Collides hashed) {r : Record}
    (single : r.hashed ⊆ hashed) {left right : Layout}
    (pair : joined left.digest right.digest ∈ hashed) : r.leaf ≠ (node left right).digest := by
  rw [digest, parent_eq_sha256_joined]
  apply Record.leaf_ne_sha256 safe single pair
  rw [length_joined, length_digest, length_digest]
  decide

/-- Without a collision, the digest of a layout determines its records up to their order. -/
theorem records_perm_of_digest_eq {hashed : List Bytes} (safe : ¬ Collides hashed)
    {t u : Layout} (first : t.hashed ⊆ hashed) (second : u.hashed ⊆ hashed)
    (same : t.digest = u.digest) : t.records.Perm u.records := by
  induction t generalizing u with
  | leaf r =>
      cases u with
      | leaf q =>
          obtain rfl := Record.eq_of_leaf_eq safe first second same
          exact List.Perm.refl _
      | node left right =>
          exact absurd same (leaf_ne_digest_node safe first (second List.mem_cons_self))
  | node left right ihLeft ihRight =>
      obtain ⟨pair, parts⟩ := List.cons_subset.1 first
      obtain ⟨partLeft, partRight⟩ := List.append_subset.1 parts
      cases u with
      | leaf q => exact absurd same.symm (leaf_ne_digest_node safe second pair)
      | node left' right' =>
          obtain ⟨pair', parts'⟩ := List.cons_subset.1 second
          obtain ⟨partLeft', partRight'⟩ := List.append_subset.1 parts'
          rw [digest, digest, parent_eq_sha256_joined, parent_eq_sha256_joined] at same
          have inputs := eq_of_sha256_eq safe pair pair' same
          -- The pair forgets left and right, so the halves may have changed places.
          rcases eq_or_swap_of_joined_eq (length_digest left) (length_digest left')
            (length_digest right') inputs with ⟨straight, straight'⟩ | ⟨crossed, crossed'⟩
          · exact (ihLeft partLeft partLeft' straight).append
              (ihRight partRight partRight' straight')
          · exact ((ihLeft partLeft partRight' crossed).append
              (ihRight partRight partLeft' crossed')).trans List.perm_append_comm

/-! ## Layers of layouts -/

theorem layers_map_digest (level : List Layout) :
    Merkle.layers parent (level.map digest) =
      (Merkle.layers node level).map (List.map digest) :=
  layers_map node parent digest (fun _ _ => rfl) level

theorem flatMap_records_pairUp (level : List Layout) :
    (pairUp node level).flatMap records = level.flatMap records := by
  fun_induction pairUp node level with
  | case1 a b rest ih =>
      simp only [List.flatMap_cons, ih, records, List.append_assoc]
  | case2 => rfl

/-- The layout at the top lists the records of the lowest layer in order. -/
theorem records_of_top_eq_some {level : List Layout} {t : Layout}
    (found : top (Merkle.layers node level) = some t) : t.records = level.flatMap records := by
  induction level using level_induction node with
  | short level small =>
      rw [layers_of_length_le_one node small, top] at found
      rcases level with - | ⟨u, - | ⟨v, rest⟩⟩
      · simp at found
      · obtain rfl : u = t := Option.some.inj found
        rw [List.flatMap_cons, List.flatMap_nil, List.append_nil]
      · simp at small
  | long level large ih =>
      rw [top_layers_of_two_le node large] at found
      rw [ih found, flatMap_records_pairUp]

/-- For the layouts of all layers nothing is hashed but for the lowest layer and for building
the layers of digests. -/
theorem hashed_subset_of_mem_layers {hashed : List Bytes} {level : List Layout}
    (leaves : ∀ t ∈ level, t.hashed ⊆ hashed)
    (building : layersHashed (Merkle.layers parent (level.map digest)) ⊆ hashed) :
    ∀ other ∈ Merkle.layers node level, ∀ t ∈ other, t.hashed ⊆ hashed := by
  induction level using level_induction node with
  | short level small =>
      rw [layers_of_length_le_one node small]
      simpa using leaves
  | long level large ih =>
      have large' : 2 ≤ (level.map digest).length := by simpa using large
      rw [layersHashed_of_two_le large', pairUp_map node parent digest (fun _ _ => rfl)] at building
      obtain ⟨pairs, others⟩ := List.append_subset.1 building
      have above : ∀ t ∈ pairUp node level, t.hashed ⊆ hashed := by
        intro t member
        obtain ⟨k, found⟩ := List.getElem?_of_mem member
        rcases pair_or_carried_of_getElem?_pairUp node found with
          ⟨a, b, left, right, rfl⟩ | ⟨carried, -⟩
        · have pair : joined a.digest b.digest ∈ pairsHashed (level.map digest) :=
            joined_mem_pairsHashed (by rw [List.getElem?_map, left]; rfl)
              (by rw [List.getElem?_map, right]; rfl)
          exact List.cons_subset.2 ⟨pairs pair, List.append_subset.2
            ⟨leaves a (List.mem_of_getElem? left), leaves b (List.mem_of_getElem? right)⟩⟩
        · exact leaves t (List.mem_of_getElem? carried)
      rw [layers_of_two_le node large]
      exact List.forall_mem_cons.2 ⟨leaves, ih above others⟩

/-- The layouts of the records of a batch. -/
def leaves (batch : List Record) : List Layout := batch.map leaf

theorem map_digest_leaves (batch : List Record) :
    (leaves batch).map digest = batch.map Record.leaf := by
  rw [leaves, List.map_map]
  rfl

theorem flatMap_records_leaves (batch : List Record) :
    (leaves batch).flatMap records = batch := by
  induction batch with
  | nil => rfl
  | cons r rest ih => exact congrArg (r :: ·) ih

/-- For the layouts of all layers over a batch nothing is hashed but for the batch. -/
theorem hashed_subset_of_mem_layers_leaves {batch : List Record} {level : List Layout}
    (layer : level ∈ Merkle.layers node (leaves batch)) {t : Layout} (member : t ∈ level) :
    t.hashed ⊆ Batch.hashed batch := by
  apply hashed_subset_of_mem_layers _ _ level layer t member
  · intro t single
    obtain ⟨r, inside, rfl⟩ := List.mem_map.1 single
    exact Batch.hashed_subset_of_mem inside
  · rw [map_digest_leaves]
    exact Batch.layersHashed_subset_hashed batch

/-- The root of a batch is the digest of a layout that lists its records in order. -/
theorem exists_layout_of_tree_eq_ok {batch : List Record} {tree : Tree}
    (built : Batch.tree batch = .ok tree) :
    ∃ t : Layout, t.digest = tree.root ∧ t.records = batch ∧ t.hashed ⊆ Batch.hashed batch := by
  have reached := Batch.top_layers_of_tree_eq_ok built
  rw [← map_digest_leaves, layers_map_digest, top_map] at reached
  obtain ⟨t, found, root⟩ := Option.map_eq_some_iff.1 reached
  refine ⟨t, root, ?_, ?_⟩
  · rw [records_of_top_eq_some found, flatMap_records_leaves]
  · obtain ⟨level, layer, member⟩ := exists_mem_of_top_eq_some found
    exact hashed_subset_of_mem_layers_leaves layer member

end Layout

end Vesting.Merkle
