/-
# Parents of nodes

A parent hashes its two nodes behind one another, the smaller one first. The byte-wise
order is total, so what is hashed does not depend on the order in which the nodes are
given; and for nodes of the size of a hash it determines them up to that order. Nothing
here says anything about the hash function beyond the size of a digest.
-/

import Vesting.Merkle.Tree

namespace Vesting

namespace Bytes

/-- Of two byte strings one is before the other, unless they are the same. -/
theorem before_trichotomy (a b : Bytes) : before a b = true ∨ a = b ∨ before b a = true := by
  induction a generalizing b with
  | nil =>
      cases b with
      | nil => exact Or.inr (Or.inl rfl)
      | cons y ys => exact Or.inl rfl
  | cons x xs ih =>
      cases b with
      | nil => exact Or.inr (Or.inr rfl)
      | cons y ys =>
          simp only [before, Bool.or_eq_true, Bool.and_eq_true, decide_eq_true_eq, beq_iff_eq]
          by_cases same : x = y
          · subst same
            rcases ih ys with first | rfl | second
            · exact Or.inl (Or.inr ⟨rfl, first⟩)
            · exact Or.inr (Or.inl rfl)
            · exact Or.inr (Or.inr (Or.inr ⟨rfl, second⟩))
          · rcases UInt8.lt_or_lt_of_ne same with less | more
            · exact Or.inl (Or.inl less)
            · exact Or.inr (Or.inr (Or.inl more))

/-- Two byte strings are not each before the other. -/
theorem before_asymm {a b : Bytes} (first : before a b = true) : before b a = false := by
  induction a generalizing b with
  | nil =>
      cases b with
      | nil => exact absurd first (by simp [before])
      | cons y ys => rfl
  | cons x xs ih =>
      cases b with
      | nil => exact absurd first (by simp [before])
      | cons y ys =>
          simp only [before, Bool.or_eq_true, Bool.and_eq_true, decide_eq_true_eq,
            beq_iff_eq] at first
          simp only [before, Bool.or_eq_false_iff, Bool.and_eq_false_imp, decide_eq_false_iff_not,
            beq_iff_eq]
          rcases first with less | ⟨rfl, rest⟩
          · exact ⟨UInt8.lt_asymm less, fun same => absurd less (by simp [same])⟩
          · exact ⟨UInt8.lt_irrefl x, fun _ => ih rest⟩

end Bytes

namespace Merkle

/-- What is hashed for the parent of two nodes. -/
def joined (a b : Bytes) : Bytes := if Bytes.before b a then b ++ a else a ++ b

theorem parent_eq_sha256_joined (a b : Bytes) : parent a b = sha256 (joined a b) := by
  unfold parent joined
  split <;> rfl

@[simp] theorem length_parent (a b : Bytes) : (parent a b).length = hashSize := by
  rw [parent_eq_sha256_joined, length_sha256, hashSize]

@[simp] theorem length_joined (a b : Bytes) : (joined a b).length = a.length + b.length := by
  unfold joined
  split
  · rw [List.length_append, Nat.add_comm]
  · rw [List.length_append]

theorem joined_eq_append (a b : Bytes) : joined a b = a ++ b ∨ joined a b = b ++ a := by
  unfold joined
  split
  · exact Or.inr rfl
  · exact Or.inl rfl

theorem joined_comm (a b : Bytes) : joined a b = joined b a := by
  rcases Bytes.before_trichotomy a b with first | rfl | second
  · simp [joined, first, Bytes.before_asymm first]
  · rfl
  · simp [joined, second, Bytes.before_asymm second]

theorem parent_comm (a b : Bytes) : parent a b = parent b a := by
  rw [parent_eq_sha256_joined, parent_eq_sha256_joined, joined_comm]

/-- Two hashes are recovered from what is hashed for their parent, up to their order. The
fourth node may be of any size. -/
theorem eq_or_swap_of_joined_eq {a b c d : Bytes} (sizeA : a.length = hashSize)
    (sizeC : c.length = hashSize) (sizeD : d.length = hashSize)
    (same : joined a b = joined c d) : (a = c ∧ b = d) ∨ (a = d ∧ b = c) := by
  have sizeB : b.length = hashSize := by
    have sizes := congrArg List.length same
    rw [length_joined, length_joined] at sizes
    omega
  rcases joined_eq_append a b with ab | ba <;> rcases joined_eq_append c d with cd | dc
  · exact Or.inl (List.append_inj (ab ▸ cd ▸ same) (by omega))
  · exact Or.inr (List.append_inj (ab ▸ dc ▸ same) (by omega))
  · exact Or.inr (List.append_inj (ba ▸ cd ▸ same) (by omega)).symm
  · exact Or.inl (List.append_inj (ba ▸ dc ▸ same) (by omega)).symm

end Merkle

end Vesting
