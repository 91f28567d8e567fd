/-
# Tampering shows

Main statement: `tampering_shows`. Whoever replaces the node that a path starts from, or
one hash on the path, by something else ends in another node, unless two byte strings that
are hashed collide. So under one root and the same siblings at most one record is accepted,
and a record that is accepted is rejected once a sibling is altered. Nothing is assumed
about where the siblings come from; there need not be a tree.

A pair is hashed with the smaller node in front, so the two runs may order their pairs
differently in any step. That hides nothing as long as the sibling is not longer than the
node beside it: what is hashed for them then gives the node back from the sibling. From the
first difference on, two runs therefore never meet again.
-/

import Vesting.Proofs.Inclusion.Soundness

namespace Vesting

/-! ## One step -/

theorem Bytes.before_append {s t : Bytes} (more : t ≠ []) : before s (s ++ t) = true := by
  induction s with
  | nil =>
      cases t with
      | nil => exact absurd rfl more
      | cons b t => rfl
  | cons a s ih => simp [before, ih]

namespace Merkle

/-- A sibling that the node begins with goes in front. -/
theorem joined_of_isPrefix {a s : Bytes} (begins : s <+: a) : joined a s = s ++ a := by
  obtain ⟨t, rfl⟩ := begins
  by_cases same : t = []
  · subst same
    rw [List.append_nil, joined, ite_self]
  · rw [joined, if_pos (Bytes.before_append same)]

/-- A node is recovered from what is hashed for it and a sibling, in whatever order they are
hashed, if the sibling is not longer than the node. -/
theorem eq_of_joined_eq {a b s : Bytes} (short : s.length ≤ a.length)
    (same : joined a s = joined b s) : a = b := by
  have sizes : a.length = b.length := by
    have lengths := congrArg List.length same
    rw [length_joined, length_joined] at lengths
    omega
  rcases joined_eq_append a s with behindA | frontA <;>
    rcases joined_eq_append b s with behindB | frontB
  · exact List.append_cancel_right (behindA.symm.trans (same.trans behindB))
  -- If the orders differ, one node begins with the sibling, so that its order does not matter.
  · have begins : s <+: a := by
      apply List.prefix_of_prefix_length_le _ (List.prefix_append a s) short
      exact ⟨b, (behindA.symm.trans (same.trans frontB)).symm⟩
    exact List.append_cancel_left
      ((joined_of_isPrefix begins).symm.trans (same.trans frontB))
  · have begins : s <+: b := by
      apply List.prefix_of_prefix_length_le _ (List.prefix_append b s) (sizes ▸ short)
      exact ⟨a, frontA.symm.trans (same.trans behindB)⟩
    exact List.append_cancel_left
      (frontA.symm.trans (same.trans (joined_of_isPrefix begins)))
  · exact List.append_cancel_left (frontA.symm.trans (same.trans frontB))

/-- A sibling that is longer than the nodes can hide which of them it stands beside. -/
example :
    let turned : List UInt8 := List.replicate 31 1
    joined (0 :: turned) (0 :: turned ++ [0]) = joined (turned ++ [0]) (0 :: turned ++ [0]) := by
  decide

/-! ## All steps -/

section Following

variable {hashed siblings : List Bytes} {node : Bytes}

/-- Without a collision, the same siblings lead to one node from one node only. -/
theorem eq_of_foldPath_eq (safe : ¬ Collides hashed)
    (short : ∀ sibling ∈ siblings, sibling.length ≤ hashSize) {other : Bytes}
    (size : node.length = hashSize) (left : foldHashed node siblings ⊆ hashed)
    (right : foldHashed other siblings ⊆ hashed)
    (same : foldPath node siblings = foldPath other siblings) : node = other := by
  induction siblings generalizing node other with
  | nil => exact same
  | cons sibling rest ih =>
      obtain ⟨first, others⟩ := List.forall_mem_cons.1 short
      obtain ⟨pair, left⟩ := List.cons_subset.1 left
      obtain ⟨pair', right⟩ := List.cons_subset.1 right
      have parents := ih others (length_parent node sibling) left right same
      rw [parent_eq_sha256_joined, parent_eq_sha256_joined] at parents
      exact eq_of_joined_eq (size ▸ first) (eq_of_sha256_eq safe pair pair' parents)

/-- Without a collision, no two siblings can stand at one place among the others, if one of them
is a hash. -/
theorem eq_of_foldPath_set_eq (safe : ¬ Collides hashed)
    (short : ∀ sibling ∈ siblings, sibling.length ≤ hashSize) (size : node.length = hashSize)
    {i : Nat} {sibling other : Bytes} (place : siblings[i]? = some sibling)
    (whole : sibling.length = hashSize) (left : foldHashed node siblings ⊆ hashed)
    (right : foldHashed node (siblings.set i other) ⊆ hashed)
    (same : foldPath node siblings = foldPath node (siblings.set i other)) : sibling = other := by
  induction siblings generalizing node i with
  | nil => simp at place
  | cons first rest ih =>
      obtain ⟨-, others⟩ := List.forall_mem_cons.1 short
      obtain ⟨pair, left⟩ := List.cons_subset.1 left
      cases i with
      | zero =>
          obtain rfl : first = sibling := Option.some.inj place
          obtain ⟨pair', right⟩ := List.cons_subset.1 right
          have parents := eq_of_foldPath_eq safe others (length_parent node first) left right same
          rw [parent_eq_sha256_joined, parent_eq_sha256_joined] at parents
          have inputs := eq_of_sha256_eq safe pair' pair parents.symm
          rcases eq_or_swap_of_joined_eq size size whole inputs with ⟨-, found⟩ | ⟨found, back⟩
          · exact found.symm
          · exact found.symm.trans back.symm
      | succ i =>
          obtain ⟨-, right⟩ := List.cons_subset.1 right
          exact ih others (length_parent node first) place left right same

end Following

end Merkle

namespace Inclusion

open Merkle

section Acceptance

variable {siblings : List Bytes} {root : Bytes} {r : Record}

/-- Without a collision, the same siblings are accepted for one record only. -/
theorem eq_of_holds {q : Record} (safe : ¬ Collides (hashed r siblings ++ hashed q siblings))
    (short : ∀ sibling ∈ siblings, sibling.length ≤ hashSize)
    (first : holds r siblings root = true) (second : holds q siblings root = true) : r = q := by
  obtain ⟨record, following⟩ := List.append_subset.1
    (List.subset_append_left (hashed r siblings) (hashed q siblings))
  obtain ⟨record', following'⟩ := List.append_subset.1
    (List.subset_append_right (hashed r siblings) (hashed q siblings))
  have leaves : r.leaf = q.leaf := eq_of_foldPath_eq safe short r.length_leaf following following'
    ((beq_iff_eq.1 first).trans (beq_iff_eq.1 second).symm)
  exact Record.eq_of_leaf_eq safe record record' leaves

/-- Without a collision, a record is accepted with one sibling only at a place of a hash. -/
theorem sibling_eq_of_holds {i : Nat} {sibling other : Bytes}
    (safe : ¬ Collides (hashed r siblings ++ hashed r (siblings.set i other)))
    (short : ∀ sibling ∈ siblings, sibling.length ≤ hashSize)
    (place : siblings[i]? = some sibling) (whole : sibling.length = hashSize)
    (first : holds r siblings root = true) (second : holds r (siblings.set i other) root = true) :
    sibling = other := by
  obtain ⟨-, following⟩ := List.append_subset.1
    (List.subset_append_left (hashed r siblings) (hashed r (siblings.set i other)))
  obtain ⟨-, following'⟩ := List.append_subset.1
    (List.subset_append_right (hashed r siblings) (hashed r (siblings.set i other)))
  exact eq_of_foldPath_set_eq safe short r.length_leaf place whole following following'
    ((beq_iff_eq.1 first).trans (beq_iff_eq.1 second).symm)

end Acceptance

/-- Whatever the siblings, as long as none is longer than a hash: starting from another node, or
with another sibling in the place of a hash, ends in another node, unless two byte strings that
are hashed on the two ways collide. So, under any root, no other record is accepted with the
siblings that a record is accepted with, nor is that record itself once a hash among them has
been replaced. -/
theorem tampering_shows {siblings : List Bytes}
    (short : ∀ sibling ∈ siblings, sibling.length ≤ hashSize) :
    (∀ leaf other : Bytes, leaf.length = hashSize → leaf ≠ other →
      Collides (foldHashed leaf siblings ++ foldHashed other siblings) ∨
        foldPath leaf siblings ≠ foldPath other siblings) ∧
    (∀ leaf : Bytes, leaf.length = hashSize → ∀ (i : Nat) (sibling other : Bytes),
      siblings[i]? = some sibling → sibling.length = hashSize → sibling ≠ other →
        Collides (foldHashed leaf siblings ++ foldHashed leaf (siblings.set i other)) ∨
          foldPath leaf siblings ≠ foldPath leaf (siblings.set i other)) ∧
    ∀ (root : Bytes) (r : Record), holds r siblings root = true →
      (∀ q : Record, r ≠ q →
        Collides (hashed r siblings ++ hashed q siblings) ∨ holds q siblings root = false) ∧
      ∀ (i : Nat) (sibling other : Bytes),
        siblings[i]? = some sibling → sibling.length = hashSize → sibling ≠ other →
          Collides (hashed r siblings ++ hashed r (siblings.set i other)) ∨
            holds r (siblings.set i other) root = false := by
  refine ⟨?_, ?_, ?_⟩
  · intro leaf other size differ
    refine Decidable.or_iff_not_imp_left.2 fun safe same => differ ?_
    exact eq_of_foldPath_eq safe short size (List.subset_append_left _ _)
      (List.subset_append_right _ _) same
  · intro leaf size i sibling other place whole differ
    refine Decidable.or_iff_not_imp_left.2 fun safe same => differ ?_
    exact eq_of_foldPath_set_eq safe short size place whole (List.subset_append_left _ _)
      (List.subset_append_right _ _) same
  · intro root r accepted
    constructor
    · intro q differ
      refine Decidable.or_iff_not_imp_left.2 fun safe => Bool.eq_false_iff.2 fun other => ?_
      exact differ (eq_of_holds safe short accepted other)
    · intro i sibling other place whole differ
      refine Decidable.or_iff_not_imp_left.2 fun safe => Bool.eq_false_iff.2 fun altered => ?_
      exact differ (sibling_eq_of_holds safe short place whole accepted altered)

/-- One sibling is enough for a record to be told from another one, and for the sibling to be
told from another hash. -/
theorem tampering_shows_ofAccount :
    let siblings : List Bytes := [List.replicate 32 1]
    let root := foldPath (Record.ofAccount 1).leaf siblings
    (∀ sibling ∈ siblings, sibling.length ≤ hashSize) ∧
      holds (Record.ofAccount 1) siblings root = true ∧
      Record.ofAccount 1 ≠ Record.ofAccount 2 ∧
      (Collides (hashed (Record.ofAccount 1) siblings ++ hashed (Record.ofAccount 2) siblings) ∨
        holds (Record.ofAccount 2) siblings root = false) ∧
      (Collides (hashed (Record.ofAccount 1) siblings ++
          hashed (Record.ofAccount 1) [List.replicate 32 2]) ∨
        holds (Record.ofAccount 1) [List.replicate 32 2] root = false) := by
  intro siblings root
  have short : ∀ sibling ∈ siblings, sibling.length ≤ hashSize := by decide
  have accepted : holds (Record.ofAccount 1) siblings root = true := beq_self_eq_true root
  have differ : Record.ofAccount 1 ≠ Record.ofAccount 2 := by decide
  obtain ⟨-, -, tampered⟩ := tampering_shows short
  obtain ⟨others, altered⟩ := tampered root (Record.ofAccount 1) accepted
  exact ⟨short, accepted, differ, others _ differ,
    altered 0 (List.replicate 32 1) (List.replicate 32 2) rfl (by decide) (by decide)⟩

end Inclusion

end Vesting
