/-
# The dimensions of a tree

How wide the layers of a tree are, how many of them there are and how long its paths are
depends on the number of its leaves alone. Each layer is half as wide as the one below,
rounded up, and rounding up layer by layer comes to the same as rounding up once. A path
has a node for every layer in which its own node has a partner, so a path that is carried
up in some layers is shorter than the tree is deep.

Main statement: `tree_dimensions`. The building of layers, the counting of layers and the
walk along a path are three recursions; each is led back to the rounded quotients here.
-/

import Mathlib
import Vesting.Proofs.Merkle.Completeness

namespace Vesting.Merkle

/-- The partner of a place differs from it in the lowest bit. -/
theorem sibling_eq_xor (i : Nat) : sibling i = i ^^^ 1 := by
  unfold sibling
  split
  next even => exact (Nat.xor_one_of_even (Nat.even_iff.2 even)).symm
  next odd => exact (Nat.xor_one_of_odd (Nat.odd_iff.2 (by omega))).symm

/-- Halving a number and rounding up goes into one quotient. -/
theorem half_ceilDiv (n k : Nat) : ((n + 1) / 2) ⌈/⌉ 2 ^ k = n ⌈/⌉ 2 ^ (k + 1) := by
  apply eq_of_forall_ge_iff
  intro width
  rw [ceilDiv_le_iff_le_mul (Nat.two_pow_pos k), ceilDiv_le_iff_le_mul (Nat.two_pow_pos (k + 1)),
    Nat.pow_succ', Nat.mul_assoc]
  omega

section Layers

variable {α : Type} (combine : α → α → α) {level : List α}

/-- A layer has as many nodes as the leaves below it have full or begun blocks. -/
theorem length_of_getElem?_layers {k : Nat} {other : List α}
    (found : (layers combine level)[k]? = some other) :
    other.length = level.length ⌈/⌉ 2 ^ k := by
  induction level using level_induction combine generalizing k with
  | short level small =>
      rw [layers_of_length_le_one combine small] at found
      cases k with
      | zero =>
          obtain rfl : level = other := Option.some.inj found
          rw [Nat.pow_zero, ceilDiv_one]
      | succ k => simp at found
  | long level large ih =>
      rw [layers_of_two_le combine large] at found
      cases k with
      | zero =>
          obtain rfl : level = other := Option.some.inj found
          rw [Nat.pow_zero, ceilDiv_one]
      | succ k => rw [ih found, length_pairUp, half_ceilDiv]

/-- A path has one node for every layer below the last in which its node has a partner. -/
theorem length_path_layers (level : List α) (i : Nat) :
    (path (layers combine level) i).length =
      Nat.count (fun k => (i / 2 ^ k) ^^^ 1 < level.length ⌈/⌉ 2 ^ k)
        ((layers combine level).length - 1) := by
  induction level using level_induction combine generalizing i with
  | short level small =>
      rw [path_layers_of_length_le_one combine small, layers_of_length_le_one combine small]
      rfl
  | long level large ih =>
      have deeper : (layers combine level).length - 1 =
          (layers combine (pairUp combine level)).length - 1 + 1 := by
        have above := List.length_pos_iff.2 (layers_ne_nil combine (pairUp combine level))
        rw [layers_of_two_le combine large, List.length_cons]
        omega
      have here : level[sibling i]?.toList.length =
          if (i / 2 ^ 0) ^^^ 1 < level.length ⌈/⌉ 2 ^ 0 then 1 else 0 := by
        rw [Nat.pow_zero, ceilDiv_one, Nat.div_one, ← sibling_eq_xor]
        split
        next inside => rw [List.getElem?_eq_getElem inside, Option.toList_some, List.length_singleton]
        next outside =>
          rw [List.getElem?_eq_none (Nat.le_of_not_lt outside), Option.toList_none, List.length_nil]
      have above (k : Nat) : (i / 2 / 2 ^ k) ^^^ 1 < (level.length + 1) / 2 ⌈/⌉ 2 ^ k ↔
          (i / 2 ^ (k + 1)) ^^^ 1 < level.length ⌈/⌉ 2 ^ (k + 1) := by
        rw [half_ceilDiv, Nat.div_div_eq_div_mul, Nat.pow_succ']
      rw [path_layers_of_two_le combine large, List.length_append, ih, here, deeper,
        Nat.count_succ', Nat.add_comm]
      simp only [length_pairUp, above]

end Layers

theorem depthOver_pos (n : Nat) : 0 < depthOver n := by
  unfold depthOver
  split
  · exact Nat.one_pos
  · exact Nat.succ_pos _

/-- Some layers are enough for as many leaves as the lowest of them can have. -/
theorem depthOver_le_iff {n e : Nat} : depthOver n ≤ e + 1 ↔ n ≤ 2 ^ e := by
  fun_induction depthOver n generalizing e with
  | case1 n small =>
      have positive := Nat.two_pow_pos e
      exact iff_of_true (Nat.le_add_left 1 e) (by omega)
  | case2 n large ih =>
      cases e with
      | zero =>
          have positive := depthOver_pos ((n + 1) / 2)
          rw [Nat.pow_zero]
          omega
      | succ e =>
          rw [Nat.add_le_add_iff_right, ih, Nat.pow_succ']
          omega

/-- The number of layers is the least with which the leaves fit below. -/
theorem isLeast_depthOver (n : Nat) : IsLeast {d | 0 < d ∧ n ≤ 2 ^ (d - 1)} (depthOver n) := by
  have positive := depthOver_pos n
  refine ⟨⟨positive, depthOver_le_iff.1 (by omega)⟩, ?_⟩
  rintro d ⟨some, enough⟩
  have below := depthOver_le_iff.2 enough
  omega

/-- Over leaves that are hashes, the layer at height `k` has as many nodes as the number of
leaves divided by `2 ^ k`, rounded up. There are as many layers as are counted for the number
of leaves, the fewest for which it is no more than a power of two; and the proof of a leaf has
a node for each layer below the last in which the leaf's place has a partner. So proofs are
shorter than the tree is deep, and no longer than thirty-two for as many leaves as are
allowed. -/
theorem tree_dimensions {leaves : List Bytes} (nonempty : leaves ≠ [])
    (sized : ∀ leaf ∈ leaves, leaf.length = hashSize) :
    ∃ t : Tree, Tree.ofLeaves leaves = .ok t ∧
      (∀ k < t.depth, ∃ level, t.layers[k]? = some level ∧
        level.length = leaves.length ⌈/⌉ 2 ^ k) ∧
      t.depth = depthFor leaves.length ∧
      IsLeast {d | 0 < d ∧ leaves.length ≤ 2 ^ (d - 1)} t.depth ∧
      ∀ i < leaves.length, ∃ siblings : List Bytes, t.proof i = .ok siblings ∧
        siblings.length =
          Nat.count (fun k => (i / 2 ^ k) ^^^ 1 < leaves.length ⌈/⌉ 2 ^ k) (t.depth - 1) ∧
        siblings.length ≤ t.depth - 1 ∧
        (leaves.length ≤ 2 ^ 32 - 1 → siblings.length ≤ 32) := by
  obtain ⟨t, built, rfl⟩ := Tree.exists_ofLeaves_eq_ok nonempty sized
  have several : 0 < t.leaves.length := List.length_pos_iff.2 nonempty
  have depth : t.depth = depthOver t.leaves.length := by
    rw [Tree.depth, t.layers_eq, length_layers]
  refine ⟨t, built, ?_, ?_, depth ▸ isLeast_depthOver _, ?_⟩
  · intro k inside
    obtain ⟨level, found⟩ : ∃ level, t.layers[k]? = some level :=
      ⟨_, List.getElem?_eq_getElem inside⟩
    refine ⟨level, found, ?_⟩
    rw [t.layers_eq] at found
    exact length_of_getElem?_layers parent found
  · have positive : ¬ (t.leaves.length : Int) ≤ 0 := by omega
    rw [depth, depthFor, if_neg positive, Int.toNat_natCast]
  · intro i inside
    have counted : (path t.layers i).length =
        Nat.count (fun k => (i / 2 ^ k) ^^^ 1 < t.leaves.length ⌈/⌉ 2 ^ k) (t.depth - 1) := by
      rw [Tree.depth, t.layers_eq, length_path_layers]
    have shorter : (path t.layers i).length ≤ t.depth - 1 := counted ▸ Nat.count_le _
    refine ⟨_, Tree.proof_of_lt inside, counted, shorter, ?_⟩
    intro few
    have shallow : t.depth ≤ 32 + 1 := depth ▸ depthOver_le_iff.2 (by omega)
    omega

/-- Three leaves have two nodes above them and then the root. The third leaf is carried up once,
so its proof is one node shorter than those of the others. -/
theorem tree_dimensions_carriedLeaves :
    carriedLeaves ≠ [] ∧ (∀ leaf ∈ carriedLeaves, leaf.length = hashSize) ∧
      ∃ t : Tree, Tree.ofLeaves carriedLeaves = .ok t ∧ t.depth = 3 ∧
        (∃ level, t.layers[1]? = some level ∧ level.length = 2) ∧
        (∃ siblings : List Bytes, t.proof 1 = .ok siblings ∧ siblings.length = 2) ∧
        ∃ siblings : List Bytes, t.proof 2 = .ok siblings ∧ siblings.length = 1 := by
  have nonempty : carriedLeaves ≠ [] := by decide
  have sized : ∀ leaf ∈ carriedLeaves, leaf.length = hashSize := by decide
  obtain ⟨t, built, widths, depth, -, proofs⟩ := tree_dimensions nonempty sized
  have deep : t.depth = 3 := by
    rw [depth]
    simp [carriedLeaves, depthFor, depthOver]
  rw [deep] at proofs
  obtain ⟨first, proved, count, -⟩ := proofs 1 (by decide)
  obtain ⟨second, proved', count', -⟩ := proofs 2 (by decide)
  refine ⟨nonempty, sized, t, built, deep, ?_, ⟨first, proved, count⟩, second, proved', count'⟩
  exact widths 1 (by rw [deep]; decide)

end Vesting.Merkle
