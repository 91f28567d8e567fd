/-
# Laws of layers

What holds of the layers over any nodes, whatever the way of combining two of them. A
layer above reads each place from a pair of places below; a map that respects combining
carries a whole tree of layers to another; and if combining does not depend on the order
of the two nodes, the path of a node leads from it to the top.

All of it goes by the same induction: a layer of at most one node is the last one, and a
longer layer stands below the layer of its pairs.
-/

import Vesting.Merkle.Layers

namespace Vesting.Merkle

variable {α β : Type} (combine : α → α → α)

/-- Induction from a layer to the layer of its pairs, which is shorter. -/
@[elab_as_elim]
theorem level_induction {motive : List α → Prop}
    (short : ∀ level, level.length ≤ 1 → motive level)
    (long : ∀ level, 2 ≤ level.length → motive (pairUp combine level) → motive level)
    (level : List α) : motive level := by
  induction size : level.length using Nat.strongRecOn generalizing level with
  | _ n ih =>
      by_cases small : level.length ≤ 1
      · exact short level small
      · have above : (pairUp combine level).length < n := by
          rw [length_pairUp]
          omega
        exact long level (by omega) (ih _ above _ rfl)

/-! ## One layer and the layer above -/

/-- A place of the layer above holds the pair of places below it, or the node that has no
partner. -/
theorem getElem?_pairUp (level : List α) (k : Nat) :
    (pairUp combine level)[k]? =
      (level[2 * k]?).map fun a => fold combine a level[2 * k + 1]?.toList := by
  fun_induction pairUp combine level generalizing k with
  | case1 a b rest ih =>
      cases k with
      | zero => rfl
      | succ k =>
          have even : 2 * (k + 1) = 2 * k + 2 := by omega
          simp only [even, List.getElem?_cons_succ, ih]
  | case2 level short =>
      rcases level with - | ⟨a, - | ⟨b, rest⟩⟩
      · rfl
      · cases k with
        | zero => rfl
        | succ k => simp
      · exact absurd rfl (short a b rest)

/-- A node of the layer above is the combination of a pair, or is carried up. -/
theorem pair_or_carried_of_getElem?_pairUp {level : List α} {k : Nat} {node : α}
    (found : (pairUp combine level)[k]? = some node) :
    (∃ a b, level[2 * k]? = some a ∧ level[2 * k + 1]? = some b ∧ node = combine a b) ∨
      (level[2 * k]? = some node ∧ level[2 * k + 1]? = none) := by
  rw [getElem?_pairUp] at found
  obtain ⟨a, left, rfl⟩ := Option.map_eq_some_iff.1 found
  cases right : level[2 * k + 1]? with
  | none => exact Or.inr ⟨left, rfl⟩
  | some b => exact Or.inl ⟨a, b, left, rfl, rfl⟩

/-- Half the place of a node holds the node combined with its partner, if it has one. -/
theorem getElem?_pairUp_half (comm : ∀ a b, combine a b = combine b a) {level : List α}
    {i : Nat} {node : α} (found : level[i]? = some node) :
    (pairUp combine level)[i / 2]? = some (fold combine node level[sibling i]?.toList) := by
  rw [getElem?_pairUp, sibling]
  by_cases even : i % 2 = 0
  · have here : 2 * (i / 2) = i := by omega
    rw [here, found, if_pos even, Option.map_some]
  · have right : 2 * (i / 2) + 1 = i := by omega
    have left : 2 * (i / 2) = i - 1 := by omega
    have inside : i - 1 < level.length := by
      have := (List.getElem?_eq_some_iff.1 found).1
      omega
    rw [right, left, found, if_neg even, List.getElem?_eq_getElem inside]
    simp only [Option.map_some, Option.toList_some, fold, List.foldl_cons, List.foldl_nil, comm]

theorem pairUp_map (other : β → β → β) (f : α → β)
    (hom : ∀ a b, f (combine a b) = other (f a) (f b)) (level : List α) :
    pairUp other (level.map f) = (pairUp combine level).map f := by
  fun_induction pairUp combine level with
  | case1 a b rest ih => rw [List.map_cons, List.map_cons, pairUp, ih, List.map_cons, hom]
  | case2 level short =>
      rcases level with - | ⟨a, - | ⟨b, rest⟩⟩
      · rfl
      · rfl
      · exact absurd rfl (short a b rest)

/-! ## All layers -/

theorem layers_ne_nil (level : List α) : layers combine level ≠ [] := by
  by_cases short : level.length ≤ 1
  · simp [layers_of_length_le_one combine short]
  · have long : 2 ≤ level.length := by omega
    simp [layers_of_two_le combine long]

/-- The layers over a layer end where the layers over its pairs do. -/
theorem top_layers_of_two_le {level : List α} (long : 2 ≤ level.length) :
    top (layers combine level) = top (layers combine (pairUp combine level)) := by
  rw [layers_of_two_le combine long]
  cases above : layers combine (pairUp combine level) with
  | nil => exact absurd above (layers_ne_nil combine _)
  | cons next rest => rfl

theorem path_layers_of_length_le_one {level : List α} (short : level.length ≤ 1) (i : Nat) :
    path (layers combine level) i = [] := by
  rw [layers_of_length_le_one combine short, path]
  simp

/-- A path begins with the partner of its node, if there is one, and goes on with the path
of half the place in the layer above. -/
theorem path_layers_of_two_le {level : List α} (long : 2 ≤ level.length) (i : Nat) :
    path (layers combine level) i =
      level[sibling i]?.toList ++ path (layers combine (pairUp combine level)) (i / 2) := by
  rw [layers_of_two_le combine long]
  cases above : layers combine (pairUp combine level) with
  | nil => exact absurd above (layers_ne_nil combine _)
  | cons next rest => rfl

/-- A map that respects combining carries layers to layers. -/
theorem layers_map (other : β → β → β) (f : α → β)
    (hom : ∀ a b, f (combine a b) = other (f a) (f b)) (level : List α) :
    layers other (level.map f) = (layers combine level).map (List.map f) := by
  induction level using level_induction combine with
  | short level small =>
      rw [layers_of_length_le_one combine small,
        layers_of_length_le_one other (by simpa using small)]
      rfl
  | long level large ih =>
      rw [layers_of_two_le combine large, layers_of_two_le other (by simpa using large),
        pairUp_map combine other f hom, ih, List.map_cons]

theorem top_map (f : α → β) (ls : List (List α)) :
    top (ls.map (List.map f)) = (top ls).map f := by
  induction ls with
  | nil => rfl
  | cons level rest ih =>
      cases rest with
      | nil => simp [top]
      | cons above rest => simpa only [List.map_cons, top] using ih

theorem path_map (f : α → β) (ls : List (List α)) (i : Nat) :
    path (ls.map (List.map f)) i = (path ls i).map f := by
  induction ls generalizing i with
  | nil => rfl
  | cons level rest ih =>
      cases rest with
      | nil => rfl
      | cons above rest =>
          have partner : (level.map f)[sibling i]?.toList = level[sibling i]?.toList.map f := by
            rw [List.getElem?_map]
            cases level[sibling i]? <;> rfl
          simp only [List.map_cons] at ih ⊢
          rw [path, path, partner, ih, List.map_append]

theorem exists_mem_of_mem_path {ls : List (List α)} {i : Nat} {node : α}
    (found : node ∈ path ls i) : ∃ level ∈ ls, node ∈ level := by
  induction ls generalizing i with
  | nil => simp [path] at found
  | cons level rest ih =>
      cases rest with
      | nil => simp [path] at found
      | cons above rest =>
          rcases List.mem_append.1 found with here | later
          · exact ⟨level, List.mem_cons_self,
              List.mem_of_getElem? (Option.mem_toList.1 here)⟩
          · obtain ⟨other, member, inside⟩ := ih later
            exact ⟨other, List.mem_cons_of_mem _ member, inside⟩

theorem exists_mem_of_top_eq_some {ls : List (List α)} {node : α} (found : top ls = some node) :
    ∃ level ∈ ls, node ∈ level := by
  induction ls with
  | nil => simp [top] at found
  | cons level rest ih =>
      cases rest with
      | nil => exact ⟨level, List.mem_cons_self, List.mem_of_mem_head? found⟩
      | cons above rest =>
          obtain ⟨other, member, inside⟩ := ih found
          exact ⟨other, List.mem_cons_of_mem _ member, inside⟩

/-- A property that combining keeps holds of the layer above if it holds of a layer. -/
theorem forall_mem_pairUp {P : α → Prop} (keeps : ∀ a b, P a → P b → P (combine a b))
    {level : List α} (nodes : ∀ node ∈ level, P node) :
    ∀ node ∈ pairUp combine level, P node := by
  intro node member
  obtain ⟨k, found⟩ := List.getElem?_of_mem member
  rcases pair_or_carried_of_getElem?_pairUp combine found with
    ⟨a, b, left, right, rfl⟩ | ⟨carried, -⟩
  · exact keeps a b (nodes a (List.mem_of_getElem? left)) (nodes b (List.mem_of_getElem? right))
  · exact nodes node (List.mem_of_getElem? carried)

/-- A property that combining keeps holds of all nodes if it holds of the leaves. -/
theorem forall_mem_layers {P : α → Prop} (keeps : ∀ a b, P a → P b → P (combine a b))
    {level : List α} (leaves : ∀ node ∈ level, P node) :
    ∀ other ∈ layers combine level, ∀ node ∈ other, P node := by
  induction level using level_induction combine with
  | short level small =>
      rw [layers_of_length_le_one combine small]
      simpa using leaves
  | long level large ih =>
      rw [layers_of_two_le combine large]
      exact List.forall_mem_cons.2 ⟨leaves, ih (forall_mem_pairUp combine keeps leaves)⟩

/-- If the order of two nodes does not matter, the path of a node leads from it to the top. -/
theorem top_layers_eq_fold_path (comm : ∀ a b, combine a b = combine b a) {level : List α}
    {i : Nat} {node : α} (found : level[i]? = some node) :
    top (layers combine level) = some (fold combine node (path (layers combine level) i)) := by
  induction level using level_induction combine generalizing i node with
  | short level small =>
      have inside : i < level.length := (List.getElem?_eq_some_iff.1 found).1
      obtain rfl : i = 0 := by omega
      rw [path_layers_of_length_le_one combine small, layers_of_length_le_one combine small, top,
        List.head?_eq_getElem?, found]
      rfl
  | long level large ih =>
      have above := ih (getElem?_pairUp_half combine comm found)
      rw [top_layers_of_two_le combine large, above, path_layers_of_two_le combine large]
      simp only [fold, List.foldl_append]

end Vesting.Merkle
