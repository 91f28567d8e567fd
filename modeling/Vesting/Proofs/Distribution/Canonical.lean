/-
# Audited distributions are canonical

An audit follows each stored proof to the root and compares no proof with the one that the
tree over the records has for its place. Main statement: if all stored siblings have the size
of a hash, it need not. A distribution that passes the audit and is built again from its
records is the very same, stored proofs included, unless two byte strings that the audit
hashes collide.

Without a collision a stored proof is the path of a place that holds the record, and as the
recipients of an audited distribution are distinct, a record has no other place than its own.
-/

import Mathlib.Data.List.Nodup
import Vesting.Proofs.Distribution.Rebuilding
import Vesting.Proofs.Inclusion.Soundness

namespace Vesting

open Merkle

/-- What is hashed to follow the proof of a node, if it has one. -/
def Node.hashed (n : Node) : List Bytes := n.proof.elim [] (Inclusion.hashed n.record)

/-- Of distinct recipients each has one place. -/
theorem Batch.place_unique {records : List Record} (distinct : (records.map (·.recipient)).Nodup)
    {i j : Nat} {r : Record} (here : records[i]? = some r) (there : records[j]? = some r) :
    i = j := by
  have inside := (List.getElem?_eq_some_iff.1 here).1
  exact (List.getElem?_inj inside (List.Nodup.of_map _ distinct)).1 (here.trans there.symm)

namespace Distribution

/-- What an audit hashes: what it takes to build the tree, if the records have one, and to
follow the proof of every node. -/
def auditHashed (d : Distribution) : List Bytes :=
  (match d.tree with
    | .ok _ => Batch.hashed d.records
    | .error _ => []) ++ d.nodes.flatMap Node.hashed

/-- All stored siblings have the size of a hash. -/
def StoresHashes (d : Distribution) : Prop :=
  ∀ n ∈ d.nodes, ∀ siblings : List Bytes, n.proof = some siblings →
    ∀ sibling ∈ siblings, sibling.length = hashSize

variable {d : Distribution} {tree : Merkle.Tree}

theorem batch_hashed_subset (built : Batch.tree d.records = .ok tree) :
    Batch.hashed d.records ⊆ d.auditHashed := by
  rw [auditHashed, Distribution.tree, built]
  exact List.subset_append_left _ _

theorem node_hashed_subset {n : Node} (member : n ∈ d.nodes) : n.hashed ⊆ d.auditHashed := by
  intro x inside
  exact List.mem_append_right _ (List.mem_flatMap.2 ⟨n, member, inside⟩)

theorem getElem?_records {i : Nat} {n : Node} (place : d.nodes[i]? = some n) :
    d.records[i]? = some n.record := by
  rw [Distribution.records, List.getElem?_map, place, Option.map_some]

/-- Without a collision, every node of a consistent distribution stores the path of its own
place. -/
theorem Consistent.proof_eq_path (consistent : d.Consistent) (sized : d.StoresHashes)
    (safe : ¬ Collides d.auditHashed) (built : Batch.tree d.records = .ok tree)
    (root : tree.root = d.root) {i : Nat} {n : Node} (place : d.nodes[i]? = some n) :
    n.proof = some (path tree.layers i) := by
  have member := List.mem_of_getElem? place
  obtain ⟨siblings, stored, accepted⟩ := consistent.proofs n member
  have following : Inclusion.hashed n.record siblings ⊆ d.auditHashed := by
    have whole := node_hashed_subset member
    rwa [Node.hashed, stored] at whole
  have apart : ¬ Collides (Batch.hashed d.records ++ Inclusion.hashed n.record siblings) :=
    fun clash => safe (clash.mono (List.append_subset.2 ⟨batch_hashed_subset built, following⟩))
  rw [← root] at accepted
  obtain ⟨j, found, rfl⟩ :=
    Inclusion.exists_path_of_holds built apart (sized n member siblings stored) accepted
  rw [stored, Batch.place_unique consistent.distinct (getElem?_records place) found]

/-- Without a collision, the nodes of a consistent distribution are those over its tree. -/
theorem Consistent.nodes_eq (consistent : d.Consistent) (sized : d.StoresHashes)
    (safe : ¬ Collides d.auditHashed) (built : Batch.tree d.records = .ok tree)
    (root : tree.root = d.root) : nodesOf tree d.records = d.nodes := by
  apply List.ext_getElem?
  intro i
  rw [getElem?_nodesOf built]
  cases place : d.nodes[i]? with
  | none =>
      have outside : d.records[i]? = none := by
        rw [Distribution.records, List.getElem?_map, place, Option.map_none]
      rw [outside, Option.map_none]
  | some n =>
      rw [getElem?_records place, Option.map_some,
        ← consistent.proof_eq_path sized safe built root place]

/-- A distribution that passes an audit, stores hashes only and is built again is what is
built, in every field and every stored proof, unless two byte strings that the audit hashes
collide. -/
theorem audited_canonical {again : Distribution} (audited : d.audit.ok = true)
    (sized : d.StoresHashes)
    (rebuilt : buildAs d.records (Record.ofWord d.version) = .ok again) :
    again = d ∨ Collides d.auditHashed := by
  by_cases clash : Collides d.auditHashed
  · exact Or.inr clash
  left
  have consistent := ok_audit_iff.1 audited
  have positive := consistent.buildAs_spec.1.1 ⟨again, rebuilt⟩
  have few : d.records.length ≤ maxNodes := consistent.length_records ▸ consistent.limit
  obtain ⟨tree, built, given⟩ :=
    buildAs_of_acceptable (consistent.acceptable_iff.2 positive) few d.version
  obtain rfl : again = ofTree tree d.records d.version :=
    Except.ok.inj (rebuilt.symm.trans given)
  obtain ⟨other, grown, root⟩ := consistent.root
  obtain rfl : other = tree := Except.ok.inj (grown.symm.trans built)
  have nodes : (ofTree other d.records d.version).nodes = d.nodes :=
    consistent.nodes_eq sized clash built root
  have same := consistent.ofTree_eq built
  rwa [← nodes] at same

/-- What is built stores nodes of its tree, which are hashes. -/
theorem storesHashes_ofTree {records : List Record} {version : UInt64}
    (built : Batch.tree records = .ok tree) : (ofTree tree records version).StoresHashes := by
  intro n member siblings stored sibling inside
  obtain ⟨i, found⟩ := List.getElem?_of_mem member
  rw [ofTree, getElem?_nodesOf built, Option.map_eq_some_iff] at found
  obtain ⟨r, -, rfl⟩ := found
  obtain rfl := Option.some.inj stored
  obtain ⟨level, layer, node⟩ := exists_mem_of_mem_path inside
  exact Tree.length_of_mem_layers layer node

/-- Three recipients, the last of whom is carried up past the parent of the others. -/
def trio : List Record := [.ofAccount 1, .ofAccount 2, .ofAccount 3]

theorem audited_canonical_trio :
    ∃ d again : Distribution, d.records = trio ∧ d.audit.ok = true ∧ d.StoresHashes ∧
      buildAs d.records (Record.ofWord d.version) = .ok again ∧
      (again = d ∨ Collides d.auditHashed) := by
  have issuable : trio ≠ [] ∧ ∀ r ∈ trio, r.Sensible := by decide
  obtain ⟨tree, built⟩ := Batch.exists_tree_iff.2 issuable
  have listed : (ofTree tree trio 7).records = trio := records_ofTree built
  have consistent : (ofTree tree trio 7).Consistent :=
    consistent_ofTree (by decide) (by decide) (by decide) built
  have positive : ∀ r ∈ (ofTree tree trio 7).records, 0 < r.amount := by
    rw [listed]
    decide
  obtain ⟨again, rebuilt, -⟩ := consistent.buildAs_eq_ok positive
  have audited := ok_audit_iff.2 consistent
  have sized : (ofTree tree trio 7).StoresHashes := storesHashes_ofTree built
  exact ⟨_, again, listed, audited, sized, rebuilt, audited_canonical audited sized rebuilt⟩

end Distribution

end Vesting
