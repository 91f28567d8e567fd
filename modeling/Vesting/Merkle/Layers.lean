/-
# Layers of a commitment tree

A tree over a list of leaves is built layer by layer: neighbours are combined in pairs,
and an unpaired last node is carried up unchanged, neither doubled nor padded. The path
of a leaf lists the other member of its pair in each layer, leaf layer first; a layer
in which the node is carried up adds nothing. All of this holds for any way of combining
two nodes.

Main statements: every layer is half as long as the one below, rounded up, and the
layers end in a single node.
-/

namespace Vesting.Merkle

variable {α : Type} (combine : α → α → α)

/-- The layer above: neighbours combined, an unpaired last node carried up. -/
def pairUp : List α → List α
  | a :: b :: rest => combine a b :: pairUp rest
  | rest => rest

@[simp] theorem length_pairUp (level : List α) :
    (pairUp combine level).length = (level.length + 1) / 2 := by
  fun_induction pairUp combine level with
  | case1 a b rest ih => simp only [List.length_cons, ih]; omega
  | case2 rest short =>
    exact match rest, short with
    | [], _ => by simp
    | [_], _ => by simp
    | a :: b :: more, short => absurd rfl (short a b more)

/-- At most `steps` layers above a layer, and the layer itself in front. -/
def climb : Nat → List α → List (List α)
  | 0, level => [level]
  | steps + 1, level =>
    if level.length ≤ 1 then [level] else level :: climb steps (pairUp combine level)

/-- All layers over some leaves, the leaves first and the root last. -/
def layers (leaves : List α) : List (List α) := climb combine leaves.length leaves

/-- A layer of one node has nothing above it. -/
theorem layers_of_length_le_one {level : List α} (short : level.length ≤ 1) :
    layers combine level = [level] := by
  unfold layers
  match level.length with
  | 0 => rfl
  | steps + 1 => simp [climb, short]

/-- Steps beyond the length of a layer change nothing. -/
theorem climb_eq_layers (steps : Nat) (level : List α) (enough : level.length ≤ steps) :
    climb combine steps level = layers combine level := by
  induction steps using Nat.strongRecOn generalizing level with
  | _ steps ih =>
    by_cases short : level.length ≤ 1
    · rw [layers_of_length_le_one combine short]
      cases steps with
      | zero => rfl
      | succ _ => simp [climb, short]
    · obtain ⟨n, size⟩ : ∃ n, level.length = n + 2 := ⟨level.length - 2, by omega⟩
      obtain ⟨m, rfl⟩ : ∃ m, steps = m + 1 := ⟨steps - 1, by omega⟩
      have above : (pairUp combine level).length = (n + 3) / 2 := by
        rw [length_pairUp, size]
      have left := ih m (by omega) (pairUp combine level) (by omega)
      have right : climb combine (n + 1) (pairUp combine level) =
          layers combine (pairUp combine level) := by
        by_cases last : m = n + 1
        · rw [← last, left]
        · exact ih (n + 1) (by omega) (pairUp combine level) (by omega)
      rw [layers, size, climb, climb, if_neg short, if_neg short, left, right]

/-- Above a layer of at least two nodes stand the layers over its pairs. -/
theorem layers_of_two_le {level : List α} (long : 2 ≤ level.length) :
    layers combine level = level :: layers combine (pairUp combine level) := by
  obtain ⟨n, size⟩ : ∃ n, level.length = n + 1 := ⟨level.length - 1, by omega⟩
  rw [layers, size, climb, if_neg (by omega),
    climb_eq_layers combine n (pairUp combine level) (by rw [length_pairUp]; omega)]

def top : List (List α) → Option α
  | [] => none
  | [level] => level.head?
  | _ :: rest => top rest

/-- The place of the other member of a node's pair. -/
def sibling (index : Nat) : Nat := if index % 2 = 0 then index + 1 else index - 1

/-- The path of a node: the other members of its pairs, layer by layer. -/
def path : List (List α) → Nat → List α
  | level :: above :: rest, index =>
    level[sibling index]?.toList ++ path (above :: rest) (index / 2)
  | _, _ => []

/-- Combine a leaf with the nodes of a path, one after another. -/
def fold (leaf : α) (siblings : List α) : α := siblings.foldl combine leaf

/-- At least one leaf has at least one layer with a single node at the top. -/
theorem top_layers_isSome (leaves : List α) (nonempty : leaves ≠ []) :
    (top (layers combine leaves)).isSome := by
  induction h : leaves.length using Nat.strongRecOn generalizing leaves with
  | _ n ih =>
    by_cases short : leaves.length ≤ 1
    · rw [layers_of_length_le_one combine short, top]
      cases leaves with
      | nil => exact absurd rfl nonempty
      | cons _ _ => rfl
    · have size : (pairUp combine leaves).length = (leaves.length + 1) / 2 := by simp
      have rest : pairUp combine leaves ≠ [] := by
        intro empty
        rw [empty] at size
        simp at size
        omega
      have above := ih (pairUp combine leaves).length (by omega) _ rest rfl
      rw [layers_of_two_le combine (by omega)]
      revert above
      cases layers combine (pairUp combine leaves) with
      | nil => exact fun above => by simp [top] at above
      | cons _ _ => exact id

end Vesting.Merkle
