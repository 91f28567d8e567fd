/-
# What is hashed

The byte strings that are passed to the hash function when layers are built and when a
path is followed, in lists, and what it means that two of them collide.

That no two byte strings have the same digest is false of every hash function with
digests of a fixed size, so it is never assumed here. What rests on it is stated with two
outcomes: either the conclusion holds, or two different byte strings that were really
hashed have the same digest.
-/

import Vesting.Proofs.Merkle.Completeness

namespace Vesting

/-- Two different byte strings among some have the same digest. -/
def Collides (hashed : List Bytes) : Prop :=
  ∃ x ∈ hashed, ∃ y ∈ hashed, x ≠ y ∧ sha256 x = sha256 y

instance (hashed : List Bytes) : Decidable (Collides hashed) :=
  inferInstanceAs (Decidable (∃ x ∈ hashed, ∃ y ∈ hashed, x ≠ y ∧ sha256 x = sha256 y))

/-- Without a collision a digest determines what was hashed. -/
theorem eq_of_sha256_eq {hashed : List Bytes} (safe : ¬ Collides hashed) {x y : Bytes}
    (left : x ∈ hashed) (right : y ∈ hashed) (same : sha256 x = sha256 y) : x = y :=
  Decidable.byContradiction fun differ => safe ⟨x, left, y, right, differ, same⟩

/-- What collides among some byte strings collides among more. -/
theorem Collides.mono {hashed more : List Bytes} (subset : hashed ⊆ more)
    (clash : Collides hashed) : Collides more := by
  obtain ⟨x, left, y, right, differ, same⟩ := clash
  exact ⟨x, subset left, y, subset right, differ, same⟩

namespace Merkle

/-- What is hashed for the layer above a layer. -/
def pairsHashed : List Bytes → List Bytes
  | a :: b :: rest => joined a b :: pairsHashed rest
  | _ => []

/-- What is hashed for all layers. A last layer of one node adds nothing. -/
def layersHashed (ls : List (List Bytes)) : List Bytes := ls.flatMap pairsHashed

/-- What is hashed to follow a path from a node. -/
def foldHashed : Bytes → List Bytes → List Bytes
  | _, [] => []
  | node, sibling :: rest => joined node sibling :: foldHashed (parent node sibling) rest

/-! ## Layers -/

theorem joined_mem_pairsHashed {level : List Bytes} {k : Nat} {a b : Bytes}
    (left : level[2 * k]? = some a) (right : level[2 * k + 1]? = some b) :
    joined a b ∈ pairsHashed level := by
  fun_induction pairsHashed level generalizing k with
  | case1 x y rest ih =>
      cases k with
      | zero =>
          obtain rfl : x = a := Option.some.inj left
          obtain rfl : y = b := Option.some.inj right
          exact List.mem_cons_self
      | succ k =>
          have even : 2 * (k + 1) = 2 * k + 2 := by omega
          rw [even] at left right
          exact List.mem_cons_of_mem _ (ih left right)
  | case2 level short =>
      rcases level with - | ⟨x, - | ⟨y, rest⟩⟩
      · simp at left
      · simp at right
      · exact absurd rfl (short x y rest)

theorem layersHashed_of_two_le {level : List Bytes} (long : 2 ≤ level.length) :
    layersHashed (layers parent level) =
      pairsHashed level ++ layersHashed (layers parent (pairUp parent level)) := by
  rw [layers_of_two_le parent long, layersHashed, List.flatMap_cons]
  rfl

/-- Every pair of nodes that is hashed has the size of two hashes. -/
theorem length_of_mem_layersHashed {level : List Bytes}
    (sized : ∀ node ∈ level, node.length = hashSize) {x : Bytes}
    (member : x ∈ layersHashed (layers parent level)) : x.length = 2 * hashSize := by
  obtain ⟨other, layer, pair⟩ := List.mem_flatMap.1 member
  have nodes := forall_mem_layers parent (P := fun node => node.length = hashSize)
    (fun a b _ _ => length_parent a b) sized other layer
  clear layer member
  fun_induction pairsHashed other with
  | case1 a b rest ih =>
      obtain ⟨sizeA, sizeB, others⟩ :
          a.length = hashSize ∧ b.length = hashSize ∧ ∀ n ∈ rest, n.length = hashSize := by
        simpa using nodes
      rcases List.mem_cons.1 pair with rfl | later
      · rw [length_joined]
        omega
      · exact ih later others
  | case2 => simp at pair

/-! ## Paths -/

theorem foldPath_concat (node : Bytes) (front : List Bytes) (sibling : Bytes) :
    foldPath node (front ++ [sibling]) = parent (foldPath node front) sibling := by
  simp only [foldPath, fold, List.foldl_append, List.foldl_cons, List.foldl_nil]

theorem foldPath_append (node : Bytes) (front rest : List Bytes) :
    foldPath node (front ++ rest) = foldPath (foldPath node front) rest := by
  simp only [foldPath, fold, List.foldl_append]

theorem length_foldPath {node : Bytes} (size : node.length = hashSize) (siblings : List Bytes) :
    (foldPath node siblings).length = hashSize := by
  induction siblings generalizing node with
  | nil => exact size
  | cons sibling rest ih => exact ih (length_parent node sibling)

theorem foldHashed_append (node : Bytes) (front rest : List Bytes) :
    foldHashed node (front ++ rest) =
      foldHashed node front ++ foldHashed (foldPath node front) rest := by
  induction front generalizing node with
  | nil => rfl
  | cons sibling front ih =>
      rw [List.cons_append, foldHashed, foldHashed, ih, List.cons_append]
      rfl

/-- Wherever a path goes on, the node reached so far and the next sibling are hashed. -/
theorem joined_mem_foldHashed (node : Bytes) (front : List Bytes) (sibling : Bytes)
    (rest : List Bytes) :
    joined (foldPath node front) sibling ∈ foldHashed node (front ++ sibling :: rest) := by
  rw [foldHashed_append]
  exact List.mem_append_right _ List.mem_cons_self

end Merkle

end Vesting
