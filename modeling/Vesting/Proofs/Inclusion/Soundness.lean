/-
# What an accepted proof shows

A proof of inclusion may come from anyone, and nothing bounds the size of its siblings.
Main statement: without a collision, a record is led to the root of a batch exactly by
the path of a place that holds it, and by siblings that splice it into a leaf it has
nothing to do with. If all siblings have the size of a hash, only the first is possible,
so the record belongs to the batch.

Leaves and inner nodes are kept apart by the sizes of what is hashed for them, the
encoding of a record eighty-two bytes, a leaf thirty-three and a pair of hashes
sixty-four. A sibling of fifty bytes makes up a whole encoding together with a node, and
a sibling of one byte makes up the input of a leaf; that is how a record can be spliced
in. The recipient of a committed record is free, so it can be the leaf of another record.
-/

import Vesting.Inclusion
import Vesting.Proofs.Batch
import Vesting.Proofs.Merkle.Descent

namespace Vesting

open Merkle

namespace Inclusion

/-- What is hashed to follow a path from a record. -/
def hashed (r : Record) (siblings : List Bytes) : List Bytes :=
  r.hashed ++ foldHashed r.leaf siblings

/-- Siblings that lead from a record to the leaf of another one, past what is hashed for
that leaf. -/
inductive Splice (r q : Record) : List Bytes → Prop
  /-- The node that is reached and the rest of fifty bytes are the encoding of the other
  record. Its digest needs only the prefix of leaves as the last sibling. -/
  | encoding {front : List Bytes} {rest : Bytes}
      (whole : joined (foldPath r.leaf front) rest = q.encode) :
      Splice r q (front ++ [rest, leafPrefix])
  /-- The node that is reached happens to be the beginning of what is hashed for the leaf,
  a zero and all but the last byte of a digest. -/
  | digest {front : List Bytes} {last : UInt8} (nonzero : last ≠ 0)
      (whole : foldPath r.leaf front ++ [last] = leafPrefix ++ sha256 q.encode) :
      Splice r q (front ++ [[last]])

/-- The prefix of leaves goes in front of every hash. -/
theorem joined_leafPrefix {node : Bytes} (size : node.length = hashSize) :
    joined node leafPrefix = leafPrefix ++ node := by
  rcases node with - | ⟨a, - | ⟨b, rest⟩⟩
  · simp [hashSize] at size
  · simp [hashSize] at size
  · have first : Bytes.before leafPrefix (a :: b :: rest) = true := by
      by_cases zero : a = 0
      · simp [leafPrefix, Bytes.before, zero]
      · simp [leafPrefix, Bytes.before, UInt8.pos_iff_ne_zero.2 zero]
    rw [joined, if_pos first]

/-- A byte other than zero goes behind every node that begins with a zero. -/
theorem joined_singleton {node : Bytes} {last : UInt8} (nonzero : last ≠ 0)
    (zero : node.head? = some 0) : joined node [last] = node ++ [last] := by
  cases node with
  | nil => simp at zero
  | cons a rest =>
      obtain rfl : a = 0 := Option.some.inj zero
      have second : Bytes.before [last] (0 :: rest) = false := by
        simp [Bytes.before, nonzero]
      rw [joined, second]
      rfl

/-- A splice leads to the leaf of the other record. -/
theorem foldPath_of_splice {r q : Record} {front : List Bytes} (spliced : Splice r q front) :
    foldPath r.leaf front = q.leaf := by
  cases spliced with
  | encoding whole =>
      rename_i front rest
      calc
        foldPath r.leaf (front ++ [rest, leafPrefix]) =
            parent (parent (foldPath r.leaf front) rest) leafPrefix := by
              rw [List.append_cons, foldPath_concat, foldPath_concat]
        _ = parent (sha256 q.encode) leafPrefix := by rw [parent_eq_sha256_joined _ rest, whole]
        _ = q.leaf := by
              rw [parent_eq_sha256_joined, joined_leafPrefix (length_sha256 _)]
              rfl
  | digest nonzero whole =>
      rename_i front last
      have zero : (foldPath r.leaf front).head? = some 0 := by
        have size := length_foldPath r.length_leaf front
        cases node : foldPath r.leaf front with
        | nil => simp [node, hashSize] at size
        | cons a rest =>
            rw [node] at whole
            exact congrArg some (List.cons.inj whole).1
      rw [foldPath_concat, parent_eq_sha256_joined, joined_singleton nonzero zero, whole]
      rfl

/-- Without a collision, a path that reaches the digest of an encoding has put the encoding
together. -/
theorem splice_of_foldPath_eq_digest {hashed : List Bytes} (safe : ¬ Collides hashed)
    {r q : Record} (left : r.hashed ⊆ hashed) (right : q.hashed ⊆ hashed) {front : List Bytes}
    (following : foldHashed r.leaf front ⊆ hashed)
    (reached : foldPath r.leaf front = sha256 q.encode) : Splice r q (front ++ [leafPrefix]) := by
  rcases List.eq_nil_or_concat front with rfl | ⟨before, rest, rfl⟩
  · have size : q.encode.length ≠ 33 := by
      rw [q.length_encode]
      decide
    exact absurd reached (Record.leaf_ne_sha256 safe left (right q.encode_mem_hashed) size)
  · rw [List.concat_eq_append] at reached following ⊢
    rw [foldPath_concat, parent_eq_sha256_joined] at reached
    rw [List.append_assoc]
    exact Splice.encoding (eq_of_sha256_eq safe
      (following (joined_mem_foldHashed r.leaf before rest [])) (right q.encode_mem_hashed) reached)

/-- Without a collision, what leads from a record to a leaf is nothing at all, and then the
leaf is that of the record, or a splice. -/
theorem eq_or_splice_of_foldPath_eq_leaf {hashed : List Bytes} (safe : ¬ Collides hashed)
    {r q : Record} (left : r.hashed ⊆ hashed) (right : q.hashed ⊆ hashed) {front : List Bytes}
    (following : foldHashed r.leaf front ⊆ hashed) (reached : foldPath r.leaf front = q.leaf) :
    (front = [] ∧ r = q) ∨ Splice r q front := by
  rcases List.eq_nil_or_concat front with rfl | ⟨before, sibling, rfl⟩
  · exact Or.inl ⟨rfl, Record.eq_of_leaf_eq safe left right reached⟩
  · rw [List.concat_eq_append] at reached following ⊢
    rw [foldPath_concat, parent_eq_sha256_joined] at reached
    have input : joined (foldPath r.leaf before) sibling = leafPrefix ++ sha256 q.encode :=
      eq_of_sha256_eq safe (following (joined_mem_foldHashed r.leaf before sibling []))
        (right q.leaf_input_mem_hashed) reached
    have size := length_foldPath r.length_leaf before
    obtain ⟨last, rfl⟩ : ∃ last, sibling = [last] := by
      have sizes := congrArg List.length input
      rw [length_joined, size, q.length_leaf_input, hashSize] at sizes
      exact List.length_eq_one_iff.1 (by omega)
    right
    by_cases zero : last = 0
    · subst zero
      rw [show [(0 : UInt8)] = leafPrefix from rfl, joined_leafPrefix size] at input
      have node : foldPath r.leaf before = sha256 q.encode := List.append_cancel_left input
      rw [foldHashed_append] at following
      exact splice_of_foldPath_eq_digest safe left right
        (List.append_subset.1 following).1 node
    · rcases joined_eq_append (foldPath r.leaf before) [last] with behind | front
      · exact Splice.digest zero (behind.symm.trans input)
      · exact absurd (List.cons.inj (front.symm.trans input)).1 zero

/-- A record that the batch of the next one does not commit to. -/
def uncommitted : Record := .ofAccount 7

/-- A record whose recipient is the leaf of the other one. -/
def host : Record :=
  { Record.ofAccount 7 with
    recipient := ⟨uncommitted.leaf, uncommitted.length_leaf⟩
    start := 255
    cliff := 300 }

/-- The encoding of the host behind its recipient, and the prefix of leaves. -/
def hostSplice : List Bytes := [host.encode.drop 32, leafPrefix]

/-- The host carries the leaf of the other record, so that record is spliced into it. -/
theorem splice_hostSplice : Splice uncommitted host hostSplice := by
  have recipient : host.encode.take 32 = uncommitted.leaf := by
    simp only [Record.encode, List.append_assoc]
    exact List.take_left' host.recipient.size
  have behind : Bytes.before (host.encode.drop 32) uncommitted.leaf = false := by
    decide +kernel
  have whole : joined (foldPath uncommitted.leaf []) (host.encode.drop 32) = host.encode := by
    change joined uncommitted.leaf (host.encode.drop 32) = host.encode
    rw [joined, behind, ← recipient]
    exact List.take_append_drop 32 host.encode
  exact Splice.encoding whole

/-- A splice has a sibling that is no hash. -/
theorem exists_length_ne_of_splice {r q : Record} {front : List Bytes}
    (spliced : Splice r q front) : ∃ sibling ∈ front, sibling.length ≠ hashSize := by
  cases spliced with
  | encoding whole => exact ⟨leafPrefix, by simp, by decide⟩
  | digest nonzero whole =>
      refine ⟨_, List.mem_append_right _ List.mem_cons_self, ?_⟩
      rw [List.length_singleton, hashSize]
      decide

/-- Without a collision, the leaf of a record is no inner node: thirty-three bytes are hashed
for the one and sixty-four for the other. -/
theorem leaf_ne_sha256_of_mem_layersHashed {records : List Record} {r : Record}
    {siblings : List Bytes} (safe : ¬ Collides (Batch.hashed records ++ hashed r siblings))
    {x : Bytes} (member : x ∈ layersHashed (Merkle.layers parent (records.map Record.leaf))) :
    r.leaf ≠ sha256 x := by
  apply Record.leaf_ne_sha256 safe
  · intro y inside
    exact List.mem_append_right _ (List.mem_append_left _ inside)
  · exact List.mem_append_left _ (Batch.layersHashed_subset_hashed records member)
  · rw [length_of_mem_layersHashed (Batch.sized_leaves records) member]
    decide

/-- Without a collision, siblings that lead from a record to the root of a batch end with the
path of a place, and those before it lead to the leaf of that place. -/
theorem exists_front_of_holds {records : List Record} {tree : Merkle.Tree}
    (built : Batch.tree records = .ok tree) {r : Record} {siblings : List Bytes}
    (safe : ¬ Collides (Batch.hashed records ++ hashed r siblings))
    (accepted : holds r siblings tree.root = true) :
    ∃ (i : Nat) (q : Record) (front : List Bytes), records[i]? = some q ∧
      siblings = front ++ path tree.layers i ∧ foldPath r.leaf front = q.leaf := by
  have reached := Batch.top_layers_of_tree_eq_ok built
  rw [← beq_iff_eq.1 accepted] at reached
  have sized := Batch.sized_leaves records
  obtain ⟨front, i, ends, found⟩ := exists_front_of_top_eq_foldPath safe sized r.length_leaf
    (fun x member => (leaf_ne_sha256_of_mem_layersHashed safe member).symm)
    (fun x member => List.mem_append_left _ (Batch.layersHashed_subset_hashed records member))
    (fun x member => List.mem_append_right _ (List.mem_append_right _ member)) reached
  rw [List.getElem?_map] at found
  obtain ⟨q, place, leaf⟩ := Option.map_eq_some_iff.1 found
  refine ⟨i, q, front, place, ?_, leaf.symm⟩
  rw [ends, Batch.layers_of_tree_eq_ok built]

/-- Without a collision, siblings that lead from a record to the root of a batch are the path
of a place that holds the record, or a splice followed by the path of a place. -/
theorem exists_path_or_splice_of_holds {records : List Record} {tree : Merkle.Tree}
    (built : Batch.tree records = .ok tree) {r : Record} {siblings : List Bytes}
    (safe : ¬ Collides (Batch.hashed records ++ hashed r siblings))
    (accepted : holds r siblings tree.root = true) :
    ∃ (i : Nat) (q : Record) (front : List Bytes), records[i]? = some q ∧
      siblings = front ++ path tree.layers i ∧ ((front = [] ∧ r = q) ∨ Splice r q front) := by
  obtain ⟨i, q, front, place, rfl, leaf⟩ := exists_front_of_holds built safe accepted
  refine ⟨i, q, front, place, rfl, ?_⟩
  apply eq_or_splice_of_foldPath_eq_leaf safe _ _ _ leaf
  · intro x member
    exact List.mem_append_right _ (List.mem_append_left _ member)
  · intro x member
    apply List.mem_append_left
    exact Batch.hashed_subset_of_mem (List.mem_of_getElem? place) member
  · intro x member
    apply List.mem_append_right
    apply List.mem_append_right
    rw [foldHashed_append]
    exact List.mem_append_left _ member

/-- Without a collision, siblings that are hashes and lead from a record to the root of a
batch are the path of a place that holds the record. -/
theorem exists_path_of_holds {records : List Record} {tree : Merkle.Tree}
    (built : Batch.tree records = .ok tree) {r : Record} {siblings : List Bytes}
    (safe : ¬ Collides (Batch.hashed records ++ hashed r siblings))
    (sized : ∀ sibling ∈ siblings, sibling.length = hashSize)
    (accepted : holds r siblings tree.root = true) :
    ∃ i : Nat, records[i]? = some r ∧ siblings = path tree.layers i := by
  obtain ⟨i, q, front, place, rfl, ⟨rfl, rfl⟩ | spliced⟩ :=
    exists_path_or_splice_of_holds built safe accepted
  · exact ⟨i, place, rfl⟩
  · obtain ⟨sibling, member, misfit⟩ := exists_length_ne_of_splice spliced
    exact absurd (sized sibling (List.mem_append_left _ member)) misfit

/-- Unless two byte strings that are hashed collide, a record is led to the root of a batch
exactly by the path of a place that holds it and by splices followed by the path of a place.
If all siblings are hashes, the record belongs to the batch. -/
theorem holds_iff_path_or_splice {records : List Record} {tree : Merkle.Tree}
    (built : Batch.tree records = .ok tree) (r : Record) (siblings : List Bytes) :
    Collides (Batch.hashed records ++ hashed r siblings) ∨
      (holds r siblings tree.root = true ↔
        ∃ (i : Nat) (q : Record) (front path : List Bytes), records[i]? = some q ∧
          tree.proof i = .ok path ∧ siblings = front ++ path ∧
          ((front = [] ∧ r = q) ∨ Splice r q front)) ∧
      ((∀ sibling ∈ siblings, sibling.length = hashSize) →
        holds r siblings tree.root = true → r ∈ records) := by
  by_cases clash : Collides (Batch.hashed records ++ hashed r siblings)
  · exact Or.inl clash
  right
  constructor
  · constructor
    · intro accepted
      obtain ⟨i, q, front, place, split, origin⟩ :=
        exists_path_or_splice_of_holds built clash accepted
      exact ⟨i, q, front, _, place, Batch.proof_of_getElem? built place, split, origin⟩
    · rintro ⟨i, q, front, siblings', place, proved, rfl, origin⟩
      have leaf : foldPath r.leaf front = q.leaf := by
        rcases origin with ⟨rfl, rfl⟩ | spliced
        · rfl
        · exact foldPath_of_splice spliced
      rw [Batch.proof_of_getElem? built place] at proved
      obtain rfl := Except.ok.inj proved
      rw [holds, foldPath_append, leaf, Tree.foldPath_path (Batch.getElem?_leaves built place)]
      exact beq_self_eq_true _
  · intro sized accepted
    obtain ⟨i, place, -⟩ := exists_path_of_holds built clash sized accepted
    exact List.mem_of_getElem? place

theorem exists_tree_host :
    ∃ tree : Merkle.Tree, Batch.tree [host] = .ok tree ∧
      holds uncommitted hostSplice tree.root = true :=
  ⟨_, rfl, beq_iff_eq.2 (foldPath_of_splice splice_hostSplice)⟩

theorem path_or_splice_of_hostSplice :
    ∃ tree : Merkle.Tree, Batch.tree [host] = .ok tree ∧
      holds uncommitted hostSplice tree.root = true ∧
      (Collides (Batch.hashed [host] ++ hashed uncommitted hostSplice) ∨
        ∃ (i : Nat) (q : Record) (front path : List Bytes), [host][i]? = some q ∧
          tree.proof i = .ok path ∧ hostSplice = front ++ path ∧
          ((front = [] ∧ uncommitted = q) ∨ Splice uncommitted q front)) := by
  obtain ⟨tree, built, accepted⟩ := exists_tree_host
  refine ⟨tree, built, accepted, ?_⟩
  rcases holds_iff_path_or_splice built uncommitted hostSplice with clash | ⟨exactly, -⟩
  · exact Or.inl clash
  · exact Or.inr (exactly.1 accepted)

/-- A record outside of the batch is led to its root by siblings of fifty bytes and of one, and
no two of the byte strings that are hashed collide. -/
theorem uncommitted_holds :
    ∃ tree : Merkle.Tree, Batch.tree [host] = .ok tree ∧
      holds uncommitted hostSplice tree.root = true ∧ uncommitted ∉ [host] ∧
      ¬ Collides (Batch.hashed [host] ++ hashed uncommitted hostSplice) := by
  obtain ⟨tree, built, accepted⟩ := exists_tree_host
  refine ⟨tree, built, accepted, ?_, by decide +kernel⟩
  intro member
  have same : uncommitted = host := by simpa using member
  exact absurd (congrArg Record.start same) (by decide)

end Inclusion

end Vesting
