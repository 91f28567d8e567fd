/-
# A tree and its two halves

A tree is built upwards, layer by layer. Seen from its root it splits: the leaves in front of
the largest power of two below their number have a full tree of their own, and the others have
a tree that may be less deep. Main statement: the root combines the roots of these two trees,
and the path of a leaf is its path in its own half followed by the root of the other half.

The induction is on the exponent of the power, one layer at a time. As the power is even until
the last step, no pair crosses the split, so pairing up goes through both halves by itself. A
right half of a single leaf is finished before the left one and stays as it is meanwhile.
-/

import Mathlib.Algebra.GroupWithZero.Nat
import Mathlib.Order.Bounds.Basic
import Vesting.Proofs.Merkle.Completeness

namespace Vesting.Merkle

/-! ## Layers -/

section Layers

variable {α : Type} (combine : α → α → α) {level : List α} {left right : α}

/-- Whatever the size of a layer, its pairs have the same top. -/
theorem top_layers_pairUp (level : List α) :
    top (layers combine (pairUp combine level)) = top (layers combine level) := by
  rcases level with - | ⟨a, - | ⟨b, rest⟩⟩
  · rfl
  · rfl
  · have several : 2 ≤ (a :: b :: rest).length := Nat.le_add_left 2 rest.length
    exact (top_layers_of_two_le combine several).symm

/-- The path of a node goes on in the layer above, also where there is no pair. -/
theorem path_layers_of_lt {i : Nat} (inside : i < level.length) :
    path (layers combine level) i =
      level[sibling i]?.toList ++ path (layers combine (pairUp combine level)) (i / 2) := by
  rcases level with - | ⟨a, - | ⟨b, rest⟩⟩
  · exact absurd inside (Nat.not_lt_zero i)
  · obtain rfl : i = 0 := Nat.lt_one_iff.1 inside
    rfl
  · have several : 2 ≤ (a :: b :: rest).length := Nat.le_add_left 2 rest.length
    exact path_layers_of_two_le combine several i

theorem take_pairUp (level : List α) (k : Nat) :
    (pairUp combine level).take k = pairUp combine (level.take (2 * k)) := by
  apply List.ext_getElem?
  intro j
  rw [List.getElem?_take, getElem?_pairUp, getElem?_pairUp, List.getElem?_take, List.getElem?_take]
  by_cases inside : j < k
  · have first : 2 * j < 2 * k := by omega
    have second : 2 * j + 1 < 2 * k := by omega
    rw [if_pos inside, if_pos first, if_pos second]
  · have first : ¬ 2 * j < 2 * k := by omega
    rw [if_neg inside, if_neg first, Option.map_none]

theorem drop_pairUp (level : List α) (k : Nat) :
    (pairUp combine level).drop k = pairUp combine (level.drop (2 * k)) := by
  apply List.ext_getElem?
  intro j
  rw [List.getElem?_drop, getElem?_pairUp, getElem?_pairUp, List.getElem?_drop, List.getElem?_drop,
    Nat.mul_add, Nat.add_assoc]

/-- A layer is split at a power of two: it is longer, but at most twice as long. -/
structure SplitAt (level : List α) (e : Nat) : Prop where
  more : 2 ^ e < level.length
  atMost : level.length ≤ 2 * 2 ^ e

namespace SplitAt

variable {e : Nat}

/-- A layer that is split at one is a pair. -/
theorem exists_pair (split : SplitAt level 0) : ∃ a b : α, level = [a, b] := by
  obtain ⟨more, atMost⟩ := split
  match level with
  | [a, b] => exact ⟨a, b, rfl⟩
  | [] | [_] | _ :: _ :: _ :: _ => simp at more atMost

/-- The pairs of a layer are split at half the power. -/
theorem pairUp (split : SplitAt level (e + 1)) : SplitAt (pairUp combine level) e := by
  obtain ⟨more, atMost⟩ := split
  rw [Nat.pow_succ] at more atMost
  constructor <;> rw [length_pairUp] <;> omega

theorem two_le (split : SplitAt level e) : 2 ≤ level.length :=
  Nat.succ_le_of_lt (Nat.lt_of_le_of_lt Nat.one_le_two_pow split.more)

/-- The power is the largest one below the length. -/
theorem isGreatest (split : SplitAt level e) :
    IsGreatest {p | (∃ e, p = 2 ^ e) ∧ p < level.length} (2 ^ e) := by
  refine ⟨⟨⟨e, rfl⟩, split.more⟩, ?_⟩
  rintro p ⟨⟨f, rfl⟩, less⟩
  have below : 2 ^ f < 2 ^ (e + 1) := Nat.pow_succ' ▸ Nat.lt_of_lt_of_le less split.atMost
  exact Nat.pow_le_pow_right Nat.two_pos
    (Nat.le_of_lt_succ ((Nat.pow_lt_pow_iff_right Nat.one_lt_two).1 below))

/-- Every layer of several nodes is split at some power of two. -/
theorem exists_of_two_le (several : 2 ≤ level.length) : ∃ e, SplitAt level e := by
  have positive : level.length - 1 ≠ 0 := by omega
  have below := Nat.log2_self_le positive
  have above : level.length - 1 < 2 ^ (Nat.log2 (level.length - 1) + 1) := Nat.lt_log2_self
  rw [Nat.pow_succ'] at above
  exact ⟨Nat.log2 (level.length - 1), by omega, by omega⟩

/-- The top of a layer combines the tops of its halves. -/
theorem top_layers (split : SplitAt level e)
    (first : top (layers combine (level.take (2 ^ e))) = some left)
    (second : top (layers combine (level.drop (2 ^ e))) = some right) :
    top (layers combine level) = some (combine left right) := by
  induction e generalizing level with
  | zero =>
      obtain ⟨a, b, rfl⟩ := split.exists_pair
      obtain rfl : a = left := Option.some.inj first
      obtain rfl : b = right := Option.some.inj second
      rfl
  | succ e ih =>
      rw [Nat.pow_succ'] at first second
      rw [← top_layers_pairUp]
      apply ih (split.pairUp combine)
      · rwa [take_pairUp, top_layers_pairUp]
      · rwa [drop_pairUp, top_layers_pairUp]

/-- The path of a node in front is its path in the first half, and then the top of the second. -/
theorem path_left (split : SplitAt level e)
    (second : top (layers combine (level.drop (2 ^ e))) = some right) {i : Nat}
    (front : i < 2 ^ e) :
    path (layers combine level) i = path (layers combine (level.take (2 ^ e))) i ++ [right] := by
  induction e generalizing level i with
  | zero =>
      obtain ⟨a, b, rfl⟩ := split.exists_pair
      obtain rfl : b = right := Option.some.inj second
      obtain rfl : i = 0 := Nat.lt_one_iff.1 front
      rfl
  | succ e ih =>
      rw [Nat.pow_succ'] at second front ⊢
      have partner : level[sibling i]? = (level.take (2 * 2 ^ e))[sibling i]? := by
        rw [List.getElem?_take_of_lt]
        unfold sibling
        split <;> omega
      have inside : i < (level.take (2 * 2 ^ e)).length := by
        have more := split.more
        rw [Nat.pow_succ'] at more
        rw [List.length_take]
        omega
      have above := ih (split.pairUp combine) (i := i / 2)
        (by rwa [drop_pairUp, top_layers_pairUp]) (by omega)
      rw [path_layers_of_two_le combine split.two_le, above, path_layers_of_lt combine inside,
        partner, take_pairUp, List.append_assoc]

/-- The path of a node behind is its path in the second half, and then the top of the first. -/
theorem path_right (split : SplitAt level e)
    (first : top (layers combine (level.take (2 ^ e))) = some left) {i : Nat}
    (inside : 2 ^ e + i < level.length) :
    path (layers combine level) (2 ^ e + i) =
      path (layers combine (level.drop (2 ^ e))) i ++ [left] := by
  induction e generalizing level i with
  | zero =>
      obtain ⟨a, b, rfl⟩ := split.exists_pair
      obtain rfl : a = left := Option.some.inj first
      obtain rfl : i = 0 := Nat.lt_one_iff.1 (Nat.lt_of_add_lt_add_left inside)
      rfl
  | succ e ih =>
      rw [Nat.pow_succ'] at first inside ⊢
      have partner : level[sibling (2 * 2 ^ e + i)]? =
          (level.drop (2 * 2 ^ e))[sibling i]? := by
        rw [List.getElem?_drop]
        congr 1
        unfold sibling
        split <;> split <;> omega
      have behind : i < (level.drop (2 * 2 ^ e)).length := by
        rw [List.length_drop]
        omega
      have half : (2 * 2 ^ e + i) / 2 = 2 ^ e + i / 2 := by omega
      have above := ih (split.pairUp combine) (i := i / 2)
        (by rwa [take_pairUp, top_layers_pairUp]) (by rw [length_pairUp]; omega)
      rw [path_layers_of_two_le combine split.two_le, half, above,
        path_layers_of_lt combine behind, partner, drop_pairUp, List.append_assoc]

end SplitAt

end Layers

/-! ## Trees -/

namespace Tree

theorem top_layers_leaves (t : Tree) : top (Merkle.layers parent t.leaves) = some t.root :=
  t.layers_eq ▸ t.top_layers_eq_root

theorem proof_eq_path {t : Tree} {i : Nat} (inside : i < t.leaves.length) :
    t.proof i = .ok (path (Merkle.layers parent t.leaves) i) :=
  t.layers_eq ▸ proof_of_lt inside

section Halves

variable {whole left right : Tree} {e : Nat}

theorem root_of_halves (split : SplitAt whole.leaves e)
    (front : left.leaves = whole.leaves.take (2 ^ e))
    (behind : right.leaves = whole.leaves.drop (2 ^ e)) :
    whole.root = parent left.root right.root := by
  have combined := split.top_layers parent (front ▸ left.top_layers_leaves)
    (behind ▸ right.top_layers_leaves)
  exact Option.some.inj (whole.top_layers_leaves.symm.trans combined)

/-- The proof of a leaf in front ends with the root of the leaves behind. -/
theorem proof_of_lt_half (split : SplitAt whole.leaves e)
    (front : left.leaves = whole.leaves.take (2 ^ e))
    (behind : right.leaves = whole.leaves.drop (2 ^ e)) {i : Nat} (before : i < 2 ^ e) :
    ∃ siblings : List Bytes, left.proof i = .ok siblings ∧
      whole.proof i = .ok (siblings ++ [right.root]) := by
  have inside : i < whole.leaves.length := Nat.lt_trans before split.more
  have half : i < left.leaves.length := by
    rw [front, List.length_take]
    exact Nat.lt_min.2 ⟨before, inside⟩
  refine ⟨_, proof_eq_path half, ?_⟩
  rw [proof_eq_path inside, front,
    split.path_left parent (behind ▸ right.top_layers_leaves) before]

/-- The proof of a leaf behind ends with the root of the leaves in front. -/
theorem proof_of_half_le (split : SplitAt whole.leaves e)
    (front : left.leaves = whole.leaves.take (2 ^ e))
    (behind : right.leaves = whole.leaves.drop (2 ^ e)) {i : Nat} (after : 2 ^ e ≤ i)
    (inside : i < whole.leaves.length) :
    ∃ siblings : List Bytes, right.proof (i - 2 ^ e : Nat) = .ok siblings ∧
      whole.proof i = .ok (siblings ++ [left.root]) := by
  obtain ⟨j, rfl⟩ := Nat.exists_eq_add_of_le after
  have half : j < right.leaves.length := by
    rw [behind, List.length_drop]
    omega
  rw [Nat.add_sub_cancel_left]
  refine ⟨_, proof_eq_path half, ?_⟩
  rw [proof_eq_path inside, behind,
    split.path_right parent (front ▸ left.top_layers_leaves) inside]

end Halves

end Tree

/-- A tree is split at the largest power of two below the number of its leaves: its root is the
parent of the roots over the leaves in front and over those behind, and the path of each leaf
is the one in its half followed by the root of the other half. A single leaf is the root, with
an empty path. -/
theorem tree_splits {leaves : List Bytes} (sized : ∀ leaf ∈ leaves, leaf.length = hashSize) :
    (2 ≤ leaves.length → ∃ k : Nat, IsGreatest {p | (∃ e, p = 2 ^ e) ∧ p < leaves.length} k ∧
      ∃ whole left right : Tree, Tree.ofLeaves leaves = .ok whole ∧
        Tree.ofLeaves (leaves.take k) = .ok left ∧ Tree.ofLeaves (leaves.drop k) = .ok right ∧
        whole.root = parent left.root right.root ∧
        (∀ i : Nat, i < k → ∃ siblings : List Bytes, left.proof i = .ok siblings ∧
          whole.proof i = .ok (siblings ++ [right.root])) ∧
        ∀ i : Nat, k ≤ i → i < leaves.length → ∃ siblings : List Bytes,
          right.proof (i - k : Nat) = .ok siblings ∧
          whole.proof i = .ok (siblings ++ [left.root])) ∧
      (leaves.length = 1 → ∃ whole : Tree, Tree.ofLeaves leaves = .ok whole ∧
        leaves = [whole.root] ∧ whole.proof 0 = .ok []) := by
  constructor
  · intro several
    obtain ⟨e, split⟩ := SplitAt.exists_of_two_le several
    have nonempty : leaves ≠ [] := List.ne_nil_of_length_pos (Nat.zero_lt_of_lt several)
    have front : leaves.take (2 ^ e) ≠ [] := by
      simpa [List.take_eq_nil_iff] using nonempty
    have behind : leaves.drop (2 ^ e) ≠ [] := by
      simpa [List.drop_eq_nil_iff] using split.more
    obtain ⟨whole, built, rfl⟩ := Tree.exists_ofLeaves_eq_ok nonempty sized
    obtain ⟨left, builtLeft, leavesLeft⟩ := Tree.exists_ofLeaves_eq_ok front
      fun leaf member => sized leaf (List.mem_of_mem_take member)
    obtain ⟨right, builtRight, leavesRight⟩ := Tree.exists_ofLeaves_eq_ok behind
      fun leaf member => sized leaf (List.mem_of_mem_drop member)
    refine ⟨2 ^ e, split.isGreatest, whole, left, right, built, builtLeft, builtRight, ?_, ?_, ?_⟩
    · exact Tree.root_of_halves split leavesLeft leavesRight
    · intro i before
      exact Tree.proof_of_lt_half split leavesLeft leavesRight before
    · intro i after inside
      exact Tree.proof_of_half_le split leavesLeft leavesRight after inside
  · intro single
    obtain ⟨leaf, rfl⟩ := List.length_eq_one_iff.1 single
    obtain ⟨whole, built, alone⟩ := Tree.exists_ofLeaves_eq_ok (List.cons_ne_nil leaf []) sized
    have reached := whole.top_layers_leaves
    have proved : whole.proof (0 : Nat) = _ := Tree.proof_eq_path (by simp [alone])
    rw [alone] at reached proved
    obtain rfl : leaf = whole.root := Option.some.inj reached
    exact ⟨whole, built, rfl, proved⟩

/-- Three leaves split after the second; the third is a half by itself. -/
theorem tree_splits_carriedLeaves :
    (∀ leaf ∈ carriedLeaves, leaf.length = hashSize) ∧ 2 ≤ carriedLeaves.length ∧
      ∃ whole left right : Tree, Tree.ofLeaves carriedLeaves = .ok whole ∧
        Tree.ofLeaves (carriedLeaves.take 2) = .ok left ∧
        Tree.ofLeaves (carriedLeaves.drop 2) = .ok right ∧
        whole.root = parent left.root right.root ∧ whole.proof 2 = .ok [left.root] := by
  have sized : ∀ leaf ∈ carriedLeaves, leaf.length = hashSize := by decide
  have several : 2 ≤ carriedLeaves.length := by decide
  obtain ⟨k, greatest, whole, left, right, built, builtLeft, builtRight, root, -, behind⟩ :=
    (tree_splits sized).1 several
  have half : IsGreatest {p | (∃ e, p = 2 ^ e) ∧ p < carriedLeaves.length} 2 :=
    SplitAt.isGreatest (e := 1) ⟨by decide, by decide⟩
  obtain rfl : k = 2 := greatest.unique half
  obtain ⟨siblings, first, second⟩ := behind 2 (Nat.le_refl 2) (by decide)
  have sizedRight : ∀ leaf ∈ carriedLeaves.drop 2, leaf.length = hashSize := by decide
  obtain ⟨single, grown, -, empty⟩ := (tree_splits sizedRight).2 rfl
  obtain rfl : single = right := Except.ok.inj (grown.symm.trans builtRight)
  obtain rfl : siblings = [] := Except.ok.inj (first.symm.trans empty)
  exact ⟨sized, several, whole, left, single, built, builtLeft, builtRight, root, second⟩

end Vesting.Merkle
