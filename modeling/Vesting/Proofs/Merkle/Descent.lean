/-
# Descending from the root

Whoever presents siblings chooses how many there are and what each of them is. Main
statement: if they lead to the root of a tree from anywhere outside its inner nodes, then
the last of them are the path of some leaf, and the others lead to that leaf; or else two
byte strings that were hashed collide.

The argument goes down the layers. What was hashed last for the root is a pair of nodes,
so the node reached before the last sibling is one of the pair and the sibling is the
other one. A node that is carried up uses no sibling.
-/

import Vesting.Proofs.Hashed

namespace Vesting.Merkle

variable {hashed : List Bytes} {level : List Bytes} {start : Bytes}

/-- One layer down: what leads to a node of the layer above leads to one below it, and then
to its partner, if it has one. -/
theorem exists_front_of_getElem?_pairUp (safe : ¬ Collides hashed)
    (sized : ∀ node ∈ level, node.length = hashSize) (size : start.length = hashSize)
    (outer : ∀ x ∈ pairsHashed level, sha256 x ≠ start)
    (building : pairsHashed level ⊆ hashed) {front : List Bytes}
    (following : foldHashed start front ⊆ hashed) {k : Nat}
    (found : (pairUp parent level)[k]? = some (foldPath start front)) :
    ∃ (before : List Bytes) (i : Nat), i / 2 = k ∧
      front = before ++ level[sibling i]?.toList ∧
      level[i]? = some (foldPath start before) := by
  rcases pair_or_carried_of_getElem?_pairUp parent found with
    ⟨a, b, left, right, combined⟩ | ⟨carried, alone⟩
  · have pair : joined a b ∈ pairsHashed level := joined_mem_pairsHashed left right
    rw [parent_eq_sha256_joined] at combined
    rcases List.eq_nil_or_concat front with rfl | ⟨before, last, rfl⟩
    · exact absurd combined.symm (outer _ pair)
    · rw [List.concat_eq_append] at combined following ⊢
      rw [foldPath_concat, parent_eq_sha256_joined] at combined
      have same : joined (foldPath start before) last = joined a b :=
        eq_of_sha256_eq safe (following (joined_mem_foldHashed start before last []))
          (building pair) combined
      -- The sibling may be either of the two, so the descent goes left or right.
      rcases eq_or_swap_of_joined_eq (length_foldPath size before)
        (sized a (List.mem_of_getElem? left)) (sized b (List.mem_of_getElem? right)) same with
        ⟨rfl, rfl⟩ | ⟨rfl, rfl⟩
      · have partner : sibling (2 * k) = 2 * k + 1 := by simp [sibling]
        exact ⟨before, 2 * k, by omega, by rw [partner, right]; rfl, left⟩
      · have partner : sibling (2 * k + 1) = 2 * k := by simp [sibling]
        exact ⟨before, 2 * k + 1, by omega, by rw [partner, left]; rfl, right⟩
  · have partner : sibling (2 * k) = 2 * k + 1 := by simp [sibling]
    exact ⟨front, 2 * k, by omega, by rw [partner, alone]; simp, carried⟩

/-- All layers down: siblings that lead to the top from outside the inner nodes end with the
path of a leaf, and those before it lead to the leaf. -/
theorem exists_front_of_top_eq_foldPath (safe : ¬ Collides hashed)
    (sized : ∀ node ∈ level, node.length = hashSize) (size : start.length = hashSize)
    (outer : ∀ x ∈ layersHashed (layers parent level), sha256 x ≠ start)
    (building : layersHashed (layers parent level) ⊆ hashed) {siblings : List Bytes}
    (following : foldHashed start siblings ⊆ hashed)
    (reached : top (layers parent level) = some (foldPath start siblings)) :
    ∃ (front : List Bytes) (i : Nat), siblings = front ++ path (layers parent level) i ∧
      level[i]? = some (foldPath start front) := by
  induction level using level_induction parent with
  | short level small =>
      rw [layers_of_length_le_one parent small, top, List.head?_eq_getElem?] at reached
      refine ⟨siblings, 0, ?_, reached⟩
      rw [path_layers_of_length_le_one parent small, List.append_nil]
  | long level large ih =>
      rw [layersHashed_of_two_le large] at outer building
      rw [top_layers_of_two_le parent large] at reached
      obtain ⟨pairs, others⟩ := List.append_subset.1 building
      obtain ⟨front, k, rfl, found⟩ := ih
        (forall_mem_pairUp parent (fun a b _ _ => length_parent a b) sized)
        (fun x member => outer x (List.mem_append_right _ member)) others reached
      rw [foldHashed_append] at following
      obtain ⟨before, i, rfl, rfl, below⟩ := exists_front_of_getElem?_pairUp safe sized size
        (fun x member => outer x (List.mem_append_left _ member)) pairs
        (List.append_subset.1 following).1 found
      refine ⟨before, i, ?_, below⟩
      rw [path_layers_of_two_le parent large, List.append_assoc]

end Vesting.Merkle
