/-
# Commitment trees

A tree commits to an ordered list of hashes. Two nodes are combined by hashing the
smaller one, byte by byte, in front of the larger, so that a pair has one parent in
either order and a proof needs no marks for left and right. A tree keeps its layers,
and always has at least one leaf of the size of a hash.

Main statement: the path of every leaf consists of nodes, so it is as long as the tree
is deep at most.
-/

import Vesting.Hex
import Vesting.Merkle.Layers
import Vesting.Sha256

namespace Vesting.Merkle

def parent (a b : Bytes) : Bytes :=
  if Bytes.before b a then sha256 (b ++ a) else sha256 (a ++ b)

/-- A commitment tree over hashes. -/
structure Tree where
  leaves : List Bytes
  nonempty : leaves ≠ []
  sized : ∀ leaf ∈ leaves, leaf.length = hashSize
  layers : List (List Bytes) := Merkle.layers parent leaves
  layers_eq : layers = Merkle.layers parent leaves := by rfl

/-- Why there is no tree over some leaves. -/
inductive LeafFault
  | noLeaves
  | wrongSize (index size : Nat)
  deriving DecidableEq

/-- The message for a leaf that is no hash. -/
def leafSizeMessage (index size : Nat) : String :=
  s!"Leaf {index} must be {hashSize} bytes, got {size}"

/-- A leaf that does not exist was asked for. -/
structure IndexFault where
  index : Int
  count : Nat
  deriving DecidableEq

/-- The message for a leaf that does not exist. -/
def IndexFault.message (f : IndexFault) : String :=
  s!"Leaf index {f.index} out of range for {f.count} leaves"

/-- A leaf, the path from it, and the root that the path is to lead to. -/
structure Inclusion where
  leaf : Bytes
  siblings : List Bytes
  root : Bytes
  deriving DecidableEq

/-- The root that a path leads to. -/
def foldPath (leaf : Bytes) (siblings : List Bytes) : Bytes := fold parent leaf siblings

/-- Whether the path leads to the root. -/
def Inclusion.holds (i : Inclusion) : Bool := foldPath i.leaf i.siblings == i.root

namespace Tree

/-- The first leaf that is no hash, counted from `index` on. -/
def firstMisfit : Nat → List Bytes → Option (Nat × Nat)
  | _, [] => none
  | index, leaf :: rest =>
    if leaf.length = hashSize then firstMisfit (index + 1) rest else some (index, leaf.length)

/-- Leaves without a misfit are all hashes. -/
theorem sized_of_firstMisfit {index : Nat} {leaves : List Bytes}
    (none : firstMisfit index leaves = none) : ∀ leaf ∈ leaves, leaf.length = hashSize := by
  induction leaves generalizing index with
  | nil => simp
  | cons first rest ih =>
    rw [firstMisfit] at none
    split at none
    · next fits => exact List.forall_mem_cons.2 ⟨fits, ih none⟩
    · exact absurd none (by simp)

/-- The tree over some leaves, which have to be hashes. -/
def ofLeaves (leaves : List Bytes) : Except LeafFault Tree :=
  if empty : leaves = [] then .error .noLeaves
  else match misfit : firstMisfit 0 leaves with
    | some (index, size) => .error (.wrongSize index size)
    | none =>
      .ok { leaves := leaves, nonempty := empty, sized := sized_of_firstMisfit misfit }

def count (t : Tree) : Nat := t.leaves.length

/-- The number of layers, leaves and root included. -/
def depth (t : Tree) : Nat := t.layers.length

def root (t : Tree) : Bytes :=
  (top t.layers).get (t.layers_eq ▸ top_layers_isSome parent t.leaves t.nonempty)

/-- The place of the first leaf with a hash. -/
def find? (t : Tree) (leaf : Bytes) : Option Nat := t.leaves.findIdx? (· == leaf)

def proof (t : Tree) (index : Int) : Except IndexFault (List Bytes) :=
  if 0 ≤ index ∧ index < t.count then .ok (path t.layers index.toNat)
  else .error ⟨index, t.count⟩

/-- The leaf at a place with its path and the root. -/
def inclusion (t : Tree) (index : Int) : Except IndexFault Inclusion :=
  (t.proof index).map fun siblings => ⟨t.leaves.getD index.toNat [], siblings, t.root⟩

/-- The paths of all leaves, in order. -/
def proofs (t : Tree) : List (List Bytes) :=
  (List.range t.count).map (path t.layers)

end Tree

/-- The number of layers over `n` leaves, at least one. -/
def depthOver (n : Nat) : Nat :=
  if n ≤ 1 then 1 else depthOver ((n + 1) / 2) + 1

/-- The number of layers of a tree with so many leaves; without leaves there are none. -/
def depthFor (leaves : Int) : Nat := if leaves ≤ 0 then 0 else depthOver leaves.toNat

/-- The layers over some leaves are as many as their number says. -/
theorem length_layers (leaves : List Bytes) :
    (layers parent leaves).length = depthOver leaves.length := by
  induction h : leaves.length using Nat.strongRecOn generalizing leaves with
  | _ n ih =>
    rw [depthOver]
    by_cases short : n ≤ 1
    · rw [layers_of_length_le_one parent (by omega), if_pos short, List.length_singleton]
    · have above : (pairUp parent leaves).length = (n + 1) / 2 := by rw [length_pairUp, h]
      rw [layers_of_two_le parent (by omega), List.length_cons, if_neg short,
        ih ((n + 1) / 2) (by omega) _ above]

/-- A path has fewer nodes than there are layers. -/
theorem length_path {α : Type} (ls : List (List α)) (index : Nat) :
    (path ls index).length ≤ ls.length - 1 := by
  fun_induction path ls index with
  | case1 level above rest index ih =>
    have one : (level[sibling index]?.toList).length ≤ 1 := by
      cases level[sibling index]? <;> simp
    simp only [List.length_append, List.length_cons] at ih ⊢
    omega
  | case2 => simp

end Vesting.Merkle
