/-
# Neighbouring blocks may be exchanged

A parent does not depend on the order of its two nodes, and so neither does what stands
above them. Main statement: if two neighbouring blocks of leaves that a pair of nodes
stands above are exchanged, the root stays as it is, and so does the path of every leaf,
wherever the leaf has gone.

The induction is on the height of the blocks. As long as they have an even size they are
exchanged pair by pair, which exchanges blocks of half the size in the layer above; blocks
of one node are the members of a pair, and there the order is forgotten.
-/

import Vesting.Proofs.Merkle.Split

namespace Vesting.Merkle

variable {α : Type}

/-- Exchange two neighbouring blocks of one size, of which the first begins at `start`. -/
def exchange (start size : Nat) (level : List α) : List α :=
  level.take start ++ (level.drop (start + size)).take size ++ (level.drop start).take size ++
    level.drop (start + 2 * size)

/-- Where a place goes when two blocks are exchanged. -/
def moved (start size i : Nat) : Nat :=
  if i < start then i
  else if i < start + size then i + size
  else if i < start + 2 * size then i - size
  else i

section Exchange

variable {start size : Nat} {level : List α}

theorem length_exchange (inside : start + 2 * size ≤ level.length) :
    (exchange start size level).length = level.length := by
  simp only [exchange, List.length_append, List.length_take, List.length_drop]
  omega

theorem mem_of_mem_exchange {node : α} (member : node ∈ exchange start size level) :
    node ∈ level := by
  simp only [exchange, List.mem_append] at member
  rcases member with ((front | second) | first) | rest
  · exact List.mem_of_mem_take front
  · exact List.mem_of_mem_drop (List.mem_of_mem_take second)
  · exact List.mem_of_mem_drop (List.mem_of_mem_take first)
  · exact List.mem_of_mem_drop rest

theorem moved_lt (inside : start + 2 * size ≤ level.length) {i : Nat} (place : i < level.length) :
    moved start size i < (exchange start size level).length := by
  rw [length_exchange inside]
  unfold moved
  grind

/-- What stood at a place stands where the place has gone, with its block in order. -/
theorem getElem?_exchange (inside : start + 2 * size ≤ level.length) (i : Nat) :
    (exchange start size level)[moved start size i]? = level[i]? := by
  simp only [exchange, List.getElem?_append, List.length_append, List.length_take,
    List.length_drop, List.getElem?_take, List.getElem?_drop]
  unfold moved
  grind

end Exchange

section Layers

variable (combine : α → α → α) {level : List α}

/-- Pairs do not cross the end of a list of even length. -/
theorem pairUp_append {front : List α} (even : 2 ∣ front.length) (rest : List α) :
    pairUp combine (front ++ rest) = pairUp combine front ++ pairUp combine rest := by
  fun_induction pairUp combine front with
  | case1 a b more ih =>
      rw [List.cons_append, List.cons_append, pairUp, List.cons_append, ih]
      simpa using even
  | case2 front short =>
      rcases front with - | ⟨a, - | ⟨b, more⟩⟩
      · rfl
      · simp at even
      · exact absurd rfl (short a b more)

/-- Exchanging blocks of pairs exchanges blocks of half the size in the layer above. -/
theorem pairUp_exchange {start size : Nat} (inside : 2 * start + 2 * (2 * size) ≤ level.length) :
    pairUp combine (exchange (2 * start) (2 * size) level) =
      exchange start size (pairUp combine level) := by
  have front : (level.take (2 * start)).length = 2 * start := by
    rw [List.length_take]
    omega
  have block (place : Nat) (within : place + 2 * size ≤ level.length) :
      ((level.drop place).take (2 * size)).length = 2 * size := by
    rw [List.length_take, List.length_drop]
    omega
  have second := block (2 * (start + size)) (by omega)
  have first := block (2 * start) (by omega)
  simp only [exchange, take_pairUp, drop_pairUp]
  rw [← Nat.mul_add, show 2 * start + 2 * (2 * size) = 2 * (start + 2 * size) by omega,
    pairUp_append, pairUp_append, pairUp_append]
  · exact ⟨start, front⟩
  · rw [List.length_append, front, second]
    omega
  · rw [List.length_append, List.length_append, front, second, first]
    omega

/-- Exchanging the two nodes of a pair is forgotten in the layer above. -/
theorem pairUp_exchange_pair (comm : ∀ a b, combine a b = combine b a) {j : Nat}
    (inside : 2 * j + 2 ≤ level.length) :
    pairUp combine (exchange (2 * j) 1 level) = pairUp combine level := by
  have even : 2 ∣ (level.take (2 * j)).length := by
    rw [List.length_take]
    omega
  obtain ⟨a, b, rest, behind⟩ : ∃ a b rest, level.drop (2 * j) = a :: b :: rest := by
    rw [List.drop_eq_getElem_cons (by omega), List.drop_eq_getElem_cons (by omega)]
    exact ⟨_, _, _, rfl⟩
  have swapped : exchange (2 * j) 1 level = level.take (2 * j) ++ b :: a :: rest := by
    simp only [exchange, ← List.drop_drop, behind]
    simp
  rw [swapped, pairUp_append combine even, pairUp, comm b a, ← pairUp, ← behind,
    ← pairUp_append combine even, List.take_append_drop]

/-! ## Blocks of any height -/

/-- The partner of a place goes where the place goes, as long as pairs are kept together. -/
theorem sibling_moved (start size i : Nat) :
    sibling (moved (2 * start) (2 * size) i) = moved (2 * start) (2 * size) (sibling i) := by
  unfold sibling moved
  grind

theorem sibling_moved_pair (j i : Nat) :
    sibling (moved (2 * j) 1 i) = moved (2 * j) 1 (sibling i) := by
  unfold sibling moved
  grind

theorem moved_half (start size i : Nat) :
    moved (2 * start) (2 * size) i / 2 = moved start size (i / 2) := by
  unfold moved
  grind

theorem moved_pair_half (j i : Nat) : moved (2 * j) 1 i / 2 = i / 2 := by
  unfold moved
  grind

theorem double_start (j k : Nat) : 2 * j * 2 ^ (k + 1) = 2 * (2 * j * 2 ^ k) := by
  rw [Nat.pow_succ', Nat.mul_left_comm]

variable (comm : ∀ a b, combine a b = combine b a) {k j : Nat}
include comm

theorem top_exchange (inside : 2 * j * 2 ^ k + 2 * 2 ^ k ≤ level.length) :
    top (layers combine (exchange (2 * j * 2 ^ k) (2 ^ k) level)) = top (layers combine level) := by
  induction k generalizing level with
  | zero =>
      rw [Nat.pow_zero, Nat.mul_one] at inside ⊢
      rw [← top_layers_pairUp, pairUp_exchange_pair combine comm inside, top_layers_pairUp]
  | succ k ih =>
      rw [double_start, Nat.pow_succ'] at inside ⊢
      rw [← top_layers_pairUp, pairUp_exchange combine inside,
        ih (by rw [length_pairUp]; omega), top_layers_pairUp]

/-- The path of a node does not change where the node goes. -/
theorem path_exchange (inside : 2 * j * 2 ^ k + 2 * 2 ^ k ≤ level.length) {i : Nat}
    (place : i < level.length) :
    path (layers combine (exchange (2 * j * 2 ^ k) (2 ^ k) level))
      (moved (2 * j * 2 ^ k) (2 ^ k) i) = path (layers combine level) i := by
  induction k generalizing level i with
  | zero =>
      rw [Nat.pow_zero, Nat.mul_one] at inside ⊢
      rw [path_layers_of_lt combine (moved_lt inside place), path_layers_of_lt combine place,
        sibling_moved_pair, getElem?_exchange inside, moved_pair_half,
        pairUp_exchange_pair combine comm inside]
  | succ k ih =>
      rw [double_start, Nat.pow_succ'] at inside ⊢
      have above : i / 2 < (pairUp combine level).length := by
        rw [length_pairUp]
        omega
      rw [path_layers_of_lt combine (moved_lt inside place), path_layers_of_lt combine place,
        sibling_moved, getElem?_exchange inside, moved_half, pairUp_exchange combine inside,
        ih (by rw [length_pairUp]; omega) above]

end Layers

/-- Exchanging two neighbouring blocks of `2 ^ k` leaves, of which the first begins at an even
multiple of their size, keeps the root, and every leaf takes its path along. -/
theorem exchange_keeps_paths {leaves : List Bytes}
    (sized : ∀ leaf ∈ leaves, leaf.length = hashSize) {k j : Nat}
    (inside : (2 * j + 2) * 2 ^ k ≤ leaves.length) :
    ∃ before after : Tree, Tree.ofLeaves leaves = .ok before ∧
      Tree.ofLeaves (exchange (2 * j * 2 ^ k) (2 ^ k) leaves) = .ok after ∧
      after.root = before.root ∧
      ∀ i < leaves.length,
        (exchange (2 * j * 2 ^ k) (2 ^ k) leaves)[moved (2 * j * 2 ^ k) (2 ^ k) i]? = leaves[i]? ∧
        ∃ siblings : List Bytes, before.proof i = .ok siblings ∧
          after.proof (moved (2 * j * 2 ^ k) (2 ^ k) i : Nat) = .ok siblings := by
  rw [Nat.add_mul] at inside
  have several : 0 < leaves.length :=
    Nat.lt_of_lt_of_le (Nat.mul_pos Nat.two_pos (Nat.two_pow_pos k))
      (Nat.le_trans (Nat.le_add_left _ _) inside)
  have exchanged : exchange (2 * j * 2 ^ k) (2 ^ k) leaves ≠ [] :=
    List.ne_nil_of_length_pos (length_exchange inside ▸ several)
  obtain ⟨before, built, rfl⟩ :=
    Tree.exists_ofLeaves_eq_ok (List.ne_nil_of_length_pos several) sized
  obtain ⟨after, rebuilt, leaves⟩ := Tree.exists_ofLeaves_eq_ok exchanged
    fun leaf member => sized leaf (mem_of_mem_exchange member)
  refine ⟨before, after, built, rebuilt, ?_, ?_⟩
  · have same := top_exchange parent parent_comm inside
    rw [← leaves, after.top_layers_leaves, before.top_layers_leaves] at same
    exact Option.some.inj same
  · intro i place
    refine ⟨getElem?_exchange inside i, _, Tree.proof_eq_path place, ?_⟩
    have within : moved (2 * j * 2 ^ k) (2 ^ k) i < after.leaves.length :=
      leaves ▸ moved_lt inside place
    rw [Tree.proof_eq_path within, leaves, path_exchange parent parent_comm inside place]

/-- Five different leaves, the last of which is carried up past two pairs. -/
def fiveLeaves : List Bytes := [0, 1, 2, 3, 4].map (List.replicate 32)

/-- The first two of the five leaves trade places with the next two. -/
theorem exchange_keeps_paths_fiveLeaves :
    (∀ leaf ∈ fiveLeaves, leaf.length = hashSize) ∧ (2 * 0 + 2) * 2 ^ 1 ≤ fiveLeaves.length ∧
      exchange 0 2 fiveLeaves = [2, 3, 0, 1, 4].map (List.replicate 32) ∧
      ∃ before after : Tree, Tree.ofLeaves fiveLeaves = .ok before ∧
        Tree.ofLeaves (exchange 0 2 fiveLeaves) = .ok after ∧ after.root = before.root ∧
        ∃ siblings : List Bytes, before.proof 1 = .ok siblings ∧ after.proof 3 = .ok siblings := by
  have sized : ∀ leaf ∈ fiveLeaves, leaf.length = hashSize := by decide
  have inside : (2 * 0 + 2) * 2 ^ 1 ≤ fiveLeaves.length := by decide
  obtain ⟨before, after, built, rebuilt, root, proofs⟩ := exchange_keeps_paths sized inside
  obtain ⟨-, siblings, proved, taken⟩ := proofs 1 (by decide)
  exact ⟨sized, inside, rfl, before, after, built, rebuilt, root, siblings, proved, taken⟩

end Vesting.Merkle
