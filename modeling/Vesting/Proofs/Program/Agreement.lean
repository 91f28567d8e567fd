/-
# Verifying everyone and auditing agree

An audit looks at every proof of a distribution; a request to verify looks at the proof of one
recipient. Main statement: when no recipient is listed twice, the audit is content with the
proofs exactly if every node has one and every recipient can be verified against the root of
the distribution. That every node has a proof has to be said: verifying takes a missing proof
for an empty one, as it would be right for a single record, and an audit does not.
-/

import Vesting.Proofs.Distribution.Verdict
import Vesting.Proofs.Merkle.Parent
import Vesting.Proofs.Program.Verify

namespace Vesting

namespace Distribution

variable {d : Distribution} {n : Node}

/-- Where no recipient is listed twice, every node is found by its recipient. -/
theorem find?_of_mem (distinct : (d.records.map (·.recipient)).Nodup) (member : n ∈ d.nodes) :
    d.find? n.record.recipient.bytes = some n := by
  have pairwise := distinct_iff.1 distinct
  unfold find?
  generalize d.nodes = nodes at member pairwise
  induction nodes with
  | nil => cases member
  | cons first rest ih =>
      obtain ⟨apart, later⟩ := List.pairwise_cons.1 pairwise
      rw [List.find?_cons]
      obtain rfl | behind := List.mem_cons.1 member
      · simp
      · have other : (first.record.recipient.bytes == n.record.recipient.bytes) = false := by
          have differ := apart n behind
          rw [beq_eq_false_iff_ne]
          intro same
          exact differ (Recipient.eq_of_bytes_eq same)
        simp only [other]
        exact ih behind later

/-- However the recipient is spelled. -/
theorem node_of_ofHex (distinct : (d.records.map (·.recipient)).Nodup) (member : n ∈ d.nodes)
    {text : String} (spelled : ofHex text = .ok n.record.recipient.bytes) :
    d.node (.text text) = .ok n := by
  simp only [node, Key.bytes?, spelled, find?_of_mem distinct member]

theorem node_of_mem (distinct : (d.records.map (·.recipient)).Nodup) (member : n ∈ d.nodes) :
    d.node (.text n.record.recipient.toHex) = .ok n :=
  node_of_ofHex distinct member (ofHex_toHex _)

@[simp] theorem id_checkFor (id : String) (complaint : Option (String × Fields)) :
    (checkFor id complaint).id = id := by
  cases complaint <;> rfl

theorem find?_node_proofs (d : Distribution) :
    d.audit.find? "node_proofs" = some (checkFor "node_proofs" d.proofComplaint) := by
  simp [Verdict.find?, audit, Verdict.checks_ofChecks, auditChecks]

/-- The check of the proofs holds exactly if every node has a proof that leads to the root. -/
theorem node_proofs_iff : (d.audit.find? "node_proofs").map (·.ok) = some true ↔
    ∀ n ∈ d.nodes, n.proof ≠ none ∧ Program.reached n = d.root := by
  rw [find?_node_proofs, Option.map_some, Option.some_inj, ok_checkFor, proofComplaint_eq_none_iff]
  refine forall₂_congr fun n _ => ?_
  cases proof : n.proof <;> simp [Program.reached, Inclusion.holds, proof]

end Distribution

namespace Program

open Merkle

section World

variable {W : Type} [Storage (StateM W)] {d : Distribution} {env : Environment}
  {settings level : Option String} {path : String} {json debug : Bool} {before : W}

/-- A recipient is verified against the root of the distribution exactly if the proof leads
there. -/
theorem exitsWith_zero_iff {line : List String} {n : Node} {args : VerifyArguments}
    (asks : Invocation.read line = .run ⟨settings, level, .verify args⟩)
    (unrooted : args.root = none) (ready : Ready env settings level args.distribution d before)
    (found : d.node (.text args.recipient) = .ok n) :
    ExitsWith 0 (run env line) before ↔ d.root = reached n := by
  rw [exitsWith_iff (result_run_verify asks ready found), unrooted]
  exact (code_judgement n d.root).1

/-- When no recipient of a distribution is listed twice, an audit is content with its proofs
exactly if every node has a proof and every recipient is verified without a root being given.
Every request is made in the same world, by any command line that asks for it. -/
theorem node_proofs_iff_all_verified {line : Recipient → List String}
    (asks : ∀ n ∈ d.nodes, Invocation.read (line n.record.recipient) = .run
      ⟨settings, level, .verify ⟨path, n.record.recipient.toHex, none, json, debug⟩⟩)
    (ready : Ready env settings level path d before)
    (distinct : (d.records.map (·.recipient)).Nodup) :
    (d.audit.find? "node_proofs").map (·.ok) = some true ↔
      ∀ n ∈ d.nodes, n.proof ≠ none ∧
        ExitsWith 0 (run env (line n.record.recipient)) before := by
  rw [Distribution.node_proofs_iff]
  refine forall₂_congr fun n member => and_congr_right fun _ => ?_
  have found := Distribution.node_of_mem distinct member
  rw [exitsWith_zero_iff (asks n member) rfl ready found, eq_comm]

end World

theorem reached_single (r : Record) (sibling : Bytes) :
    reached ⟨r, some [sibling]⟩ = parent r.leaf sibling := rfl

/-- The distribution of two records, with the proofs that they need. -/
def pair : Distribution where
  root := parent (Record.ofAccount 1).leaf (Record.ofAccount 2).leaf
  version := 0
  maxClaim := 40200
  maxEscrows := 2
  nodes := [⟨.ofAccount 1, some [(Record.ofAccount 2).leaf]⟩,
    ⟨.ofAccount 2, some [(Record.ofAccount 1).leaf]⟩]

/-- The plain command line that verifies a recipient. -/
def plainLine (r : Recipient) : List String :=
  VerifyArguments.line ⟨"tree.json", r.toHex, none, false, false⟩

theorem read_plainLine (r : Recipient) : Invocation.read (plainLine r) =
    .run ⟨none, none, .verify ⟨"tree.json", r.toHex, none, false, false⟩⟩ := by
  have path : "tree.json".toList.head? ≠ some '-' := by decide
  exact Invocation.read_line path (head?_ne_dash_of_ofHex (ofHex_toHex r.bytes))

/-- Both of its recipients are verified, as the audit says. -/
theorem node_proofs_iff_all_verified_pair :
    (pair.records.map (·.recipient)).Nodup ∧
      (pair.audit.find? "node_proofs").map (·.ok) = some true ∧
      ∀ n ∈ pair.nodes, n.proof ≠ none ∧
        ExitsWith 0 (run [] (plainLine n.record.recipient)) (holding pair) := by
  have size : pair.root.length = hashSize := by
    rw [pair, length_parent]
  have differ : (Record.ofAccount 1).recipient ≠ (Record.ofAccount 2).recipient := by
    intro same
    have first := congrArg (·.bytes.head?) same
    exact absurd first (by decide)
  have distinct : (pair.records.map (·.recipient)).Nodup := by
    simpa [pair, Distribution.records] using differ
  have passed : (pair.audit.find? "node_proofs").map (·.ok) = some true := by
    rw [Distribution.node_proofs_iff]
    rintro n member
    obtain rfl | rfl := List.mem_pair.1 member
    · exact ⟨Option.some_ne_none _, by rw [reached_single, pair]⟩
    · exact ⟨Option.some_ne_none _, by rw [reached_single, pair, parent_comm]⟩
  have agree := node_proofs_iff_all_verified (fun n _ => read_plainLine n.record.recipient)
    (ready_holding size) distinct
  exact ⟨distinct, passed, agree.1 passed⟩

/-- The only recipient of a distribution without a proof is verified, although the audit is not
content with it. -/
theorem verified_without_proof :
    ((lone none).records.map (·.recipient)).Nodup ∧
      (∀ n ∈ (lone none).nodes,
        ExitsWith 0 (run [] (plainLine n.record.recipient)) (holding (lone none))) ∧
      ((lone none).audit.find? "node_proofs").map (·.ok) = some false := by
  have size : (lone none).root.length = hashSize := Record.length_leaf _
  refine ⟨List.pairwise_singleton _ _, ?_, ?_⟩
  · intro n member
    obtain rfl := List.mem_singleton.1 member
    exact (exitsWith_zero_iff (read_plainLine _) rfl (ready_holding size)
      (node_lone none none)).2 rfl
  · rw [Distribution.find?_node_proofs]
    rfl

end Program

end Vesting
