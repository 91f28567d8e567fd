/-
# Which batches become distributions

A batch goes through three passes before it is a distribution: its records are checked, a
tree is grown over it, and its totals are summed; what comes out is audited once more. Main
statement: up to the size that trees may have, a batch is built exactly if it is acceptable,
and then the distribution holds the batch in order, each record with the proof of its place,
under the root and with the exact totals, and passes all checks of the audit; any other batch
is refused for the first thing that is wrong with it.

The passes do not ask the same questions, so that they agree has to be shown. What the check
lets through has a tree, and of its totals only the sum can still leave the range of words.
The audit asks for what the other passes have put together and never refuses.
-/

import Vesting.Distribution.Build
import Vesting.Proofs.Batch
import Vesting.Proofs.Distribution.Audit
import Vesting.Proofs.Merkle.Completeness

namespace Vesting

open Merkle

/-- A word is read back from its value. -/
theorem Schema.word_ofWord (w : UInt64) : Schema.word (Record.ofWord w) = .done w := by
  have positive : ¬ (w.toNat : Int) < 0 := by omega
  have small : ¬ 0xffffffffffffffff < w.toNat := Nat.not_lt.2 (word_le_wordMax w)
  simp only [word, natural, Record.ofWord, whole, Reading.andThen, if_neg positive,
    Int.toNat_natCast, if_neg small, Reading.map, UInt64.ofNat_toNat]

variable {records : List Record} {tree : Merkle.Tree} {version : UInt64}

namespace Batch

theorem count_of_tree_eq_ok (built : Batch.tree records = .ok tree) :
    tree.count = records.length := by
  rw [Tree.count, leaves_of_tree_eq_ok built, List.length_map]

/-- How a batch is refused: it is empty, something is wrong with a record of it, or only its
amounts do not add up to a word. -/
inductive Refused (records : List Record) : Refusal → Prop
  | empty (nothing : records = []) : Refused records (.emptyInput Refusal.emptyMessage)
  | offence {refusal : Refusal} (first : FirstOffence records refusal) : Refused records refusal
  | sum {refusal : Refusal} (passed : ∀ i, PassesAt records i)
      (beyond : Overflow records refusal) : Refused records refusal

/-- No batch is refused for a distribution that contradicts itself. -/
theorem Refused.ne_inconsistentTree {refusal : Refusal} (refused : Refused records refusal)
    (message : String) (details : Fields) : refusal ≠ .inconsistentTree message details := by
  cases refused with
  | empty _ => nofun
  | offence first =>
      obtain ⟨i, r, -, offence, -⟩ := first
      cases offence <;> nofun
  | sum _ beyond =>
      obtain ⟨i, r, -, -, -, rfl⟩ := beyond
      nofun

/-- A batch whose records pass is acceptable, unless it is empty or its sum is no word. -/
theorem acceptable_of_passesAt (nonempty : records ≠ []) (passed : ∀ i, PassesAt records i)
    (inRange : amount records ≤ Record.wordMax) : Acceptable records := by
  obtain ⟨distinct, sound⟩ := forall_passesAt_iff.1 passed
  exact ⟨nonempty, distinct, fun r member => (sound r member).toSensible,
    fun r member => (sound r member).amount_pos, inRange⟩

end Batch

namespace Distribution

/-! ## The distribution over a tree -/

/-- The distribution of a batch over its tree. -/
def ofTree (tree : Merkle.Tree) (records : List Record) (version : UInt64) : Distribution :=
  ⟨tree.root, version, .ofNat (Batch.amount records), .ofNat records.length,
    nodesOf tree records⟩

/-- Every place of a batch has its record and the path of the place. -/
theorem getElem?_nodesOf (built : Batch.tree records = .ok tree) (i : Nat) :
    (nodesOf tree records)[i]? = records[i]?.map fun r => ⟨r, some (path tree.layers i)⟩ := by
  rw [nodesOf, List.getElem?_map, List.zip, List.getElem?_zipWith, Tree.proofs,
    List.getElem?_map, Batch.count_of_tree_eq_ok built]
  cases place : records[i]? with
  | none => rfl
  | some r =>
      rw [List.getElem?_range (List.getElem?_eq_some_iff.1 place).1]
      rfl

theorem records_ofTree (built : Batch.tree records = .ok tree) :
    (ofTree tree records version).records = records := by
  apply List.ext_getElem?
  intro i
  rw [Distribution.records, ofTree, List.getElem?_map, getElem?_nodesOf built, Option.map_map]
  cases records[i]? <;> rfl

/-- The proof of a place leads from its record to the root. -/
theorem holds_path (built : Batch.tree records = .ok tree) {i : Nat} {r : Record}
    (place : records[i]? = some r) :
    Inclusion.holds r (path tree.layers i) tree.root = true :=
  beq_iff_eq.2 (Tree.foldPath_path (Batch.getElem?_leaves built place))

theorem toNat_maxClaim_ofTree (inRange : Batch.amount records ≤ Record.wordMax) :
    (ofTree tree records version).maxClaim.toNat = Batch.amount records :=
  UInt64.toNat_ofNat_of_lt (Nat.lt_succ_of_le inRange)

theorem toNat_maxEscrows_ofTree (few : records.length ≤ maxNodes) :
    (ofTree tree records version).maxEscrows.toNat = records.length :=
  UInt64.toNat_ofNat_of_lt (Nat.lt_of_le_of_lt few (by decide))

/-- The distribution over a tree is consistent if recipients are distinct and the amounts add
up to a word. -/
theorem consistent_ofTree (distinct : (records.map (·.recipient)).Nodup)
    (inRange : Batch.amount records ≤ Record.wordMax) (few : records.length ≤ maxNodes)
    (built : Batch.tree records = .ok tree) :
    (ofTree tree records version).Consistent := by
  have promised : (ofTree tree records version).maxEscrows.toNat = records.length :=
    toNat_maxEscrows_ofTree few
  refine ⟨?_, ?_, ?_, ?_, ?_, ?_⟩
  · rwa [promised]
  · rw [promised, ← List.length_map (·.record), ← Distribution.records, records_ofTree built]
  · rwa [records_ofTree built]
  · rw [records_ofTree built, toNat_maxClaim_ofTree inRange]
  · rw [records_ofTree built]
    exact ⟨tree, built, rfl⟩
  · intro n member
    obtain ⟨i, found⟩ := List.getElem?_of_mem member
    rw [ofTree, getElem?_nodesOf built, Option.map_eq_some_iff] at found
    obtain ⟨r, place, rfl⟩ := found
    exact ⟨_, rfl, holds_path built place⟩

/-! ## Building -/

theorem assemble_of_acceptable (acceptable : Batch.Acceptable records) :
    ∃ tree : Merkle.Tree, Batch.tree records = .ok tree ∧
      assemble records 0 = .ok (ofTree tree records 0) := by
  obtain ⟨tree, built⟩ := Batch.exists_tree_iff.2 ⟨acceptable.nonempty, acceptable.sensible⟩
  have nonempty : records.isEmpty = false := List.isEmpty_eq_false_iff.2 acceptable.nonempty
  have summed := Batch.total_eq_ok_iff.2 ⟨rfl, acceptable.amount_le⟩
  refine ⟨tree, built, ?_⟩
  simp only [assemble, nonempty, Batch.check_of_acceptable acceptable, built, summed]
  rfl

/-- Of an acceptable batch the distribution over its tree is built. -/
theorem buildAs_of_acceptable (acceptable : Batch.Acceptable records)
    (few : records.length ≤ maxNodes) (version : UInt64) :
    ∃ tree : Merkle.Tree, Batch.tree records = .ok tree ∧
      buildAs records (Record.ofWord version) = .ok (ofTree tree records version) := by
  obtain ⟨tree, built, assembled⟩ := assemble_of_acceptable acceptable
  have renumbered : { ofTree tree records 0 with version := version } =
      ofTree tree records version := rfl
  have consistent : (ofTree tree records version).Consistent :=
    consistent_ofTree acceptable.distinct acceptable.amount_le few built
  refine ⟨tree, built, ?_⟩
  simp only [buildAs, assembleAs, assembled, Schema.word_ofWord, Reading.under, Reading.toExcept]
  rw [renumbered, validate_of_consistent consistent]

theorem assemble_of_not_acceptable (unacceptable : ¬ Batch.Acceptable records) :
    ∃ refusal : Refusal, Batch.Refused records refusal ∧ assemble records 0 = .error refusal := by
  by_cases nothing : records = []
  · subst nothing
    exact ⟨_, .empty rfl, rfl⟩
  have nonempty : records.isEmpty = false := List.isEmpty_eq_false_iff.2 nothing
  rcases Batch.check_cases records with ⟨passed, checked⟩ | ⟨refusal, first, refused⟩
  · have sound := (Batch.forall_passesAt_iff.1 passed).2
    have beyond : Record.wordMax < Batch.amount records := by
      apply Nat.lt_of_not_le
      intro inRange
      exact unacceptable (Batch.acceptable_of_passesAt nothing passed inRange)
    obtain ⟨tree, built⟩ :=
      Batch.exists_tree_iff.2 ⟨nothing, fun r member => (sound r member).toSensible⟩
    obtain ⟨refusal, refused, overflow⟩ :=
      Batch.exists_total_eq_error (fun r member => (sound r member).amount_le) beyond
    refine ⟨refusal, .sum passed overflow, ?_⟩
    simp only [assemble, nonempty, checked, built, refused]
    rfl
  · refine ⟨refusal, .offence first, ?_⟩
    simp only [assemble, nonempty, refused]
    rfl

/-- Any other batch is refused, whatever the version is read from. -/
theorem buildAs_of_not_acceptable (unacceptable : ¬ Batch.Acceptable records) (version : Value) :
    ∃ refusal : Refusal, Batch.Refused records refusal ∧
      buildAs records version = .error (.refused refusal) := by
  obtain ⟨refusal, refused, assembled⟩ := assemble_of_not_acceptable unacceptable
  refine ⟨refusal, refused, ?_⟩
  simp only [buildAs, assembleAs, assembled]

/-- Whatever the version is read from, what is built is the distribution over the tree of an
acceptable batch, and it has been audited. -/
theorem exists_ofTree_of_buildAs_eq_ok {version : Value} {d : Distribution}
    (given : buildAs records version = .ok d) :
    Batch.Acceptable records ∧ d.Consistent ∧ ∃ (tree : Merkle.Tree) (number : UInt64),
      Batch.tree records = .ok tree ∧ d = ofTree tree records number := by
  by_cases acceptable : Batch.Acceptable records
  · obtain ⟨tree, built, assembled⟩ := assemble_of_acceptable acceptable
    simp only [buildAs, assembleAs, assembled] at given
    split at given
    · cases given
    rename_i numbered read
    split at given
    · cases given
    rename_i valid
    cases given
    split at read
    · cases read
    rename_i number _
    cases read
    exact ⟨acceptable, consistent_of_validate_eq_ok valid, tree, number, built, rfl⟩
  · obtain ⟨refusal, -, refused⟩ := buildAs_of_not_acceptable acceptable version
    rw [refused] at given
    cases given

/-- What is built of a batch: the batch in order, each record with the proof of its place in
the tree over the batch, under the root of the tree, with the exact totals, and with nothing
that an audit finds. -/
structure Delivers (d : Distribution) (records : List Record) (version : UInt64) : Prop where
  listed : d.records = records
  numbered : d.version = version
  proofs : ∃ tree : Merkle.Tree, Batch.tree records = .ok tree ∧ d.root = tree.root ∧
    ∀ (i : Nat) (r : Record), records[i]? = some r → ∃ siblings : List Bytes,
      tree.proof i = .ok siblings ∧ d.nodes[i]? = some ⟨r, some siblings⟩
  claim : d.maxClaim.toNat = Batch.amount records
  escrows : d.maxEscrows.toNat = records.length
  audit : d.audit = .success (checkNames.map .passed)

theorem delivers_ofTree (acceptable : Batch.Acceptable records) (few : records.length ≤ maxNodes)
    (built : Batch.tree records = .ok tree) :
    (ofTree tree records version).Delivers records version := by
  refine ⟨records_ofTree built, rfl, ⟨tree, built, rfl, ?_⟩,
    toNat_maxClaim_ofTree acceptable.amount_le, toNat_maxEscrows_ofTree few,
    (consistent_ofTree acceptable.distinct acceptable.amount_le few built).audit_eq⟩
  intro i r place
  refine ⟨_, Batch.proof_of_getElem? built place, ?_⟩
  rw [ofTree, getElem?_nodesOf built, place, Option.map_some]

/-- Exactly the acceptable batches are built, and what is built delivers the batch; any other
batch is refused for what is wrong with it, and never because of the audit. -/
theorem construction_spec (few : records.length ≤ maxNodes) (version : UInt64) :
    ((∃ d : Distribution, buildAs records (Record.ofWord version) = .ok d) ↔
        Batch.Acceptable records) ∧
      (∀ d : Distribution, buildAs records (Record.ofWord version) = .ok d →
        d.Delivers records version) ∧
      ∀ failure : Failure, buildAs records (Record.ofWord version) = .error failure →
        ∃ refusal : Refusal, failure = .refused refusal ∧ Batch.Refused records refusal ∧
          ∀ (message : String) (details : Fields),
            refusal ≠ .inconsistentTree message details := by
  by_cases acceptable : Batch.Acceptable records
  · obtain ⟨tree, built, given⟩ := buildAs_of_acceptable acceptable few version
    rw [given]
    refine ⟨⟨fun _ => acceptable, fun _ => ⟨_, rfl⟩⟩, ?_, ?_⟩
    · intro d same
      cases same
      exact delivers_ofTree acceptable few built
    · intro failure same
      cases same
  · obtain ⟨refusal, refused, given⟩ := buildAs_of_not_acceptable acceptable (Record.ofWord version)
    rw [given]
    refine ⟨⟨nofun, fun accepted => absurd accepted acceptable⟩, nofun, ?_⟩
    intro failure same
    cases same
    exact ⟨refusal, rfl, refused, refused.ne_inconsistentTree⟩

/-- Two recipients with the same grant. -/
def twins : List Record := [.ofAccount 1, .ofAccount 2]

theorem acceptable_twins : Batch.Acceptable twins where
  nonempty := by decide
  distinct := by decide
  sensible := by decide
  amount_pos := by decide
  amount_le := by decide

theorem construction_spec_twins :
    twins.length ≤ maxNodes ∧ ∃ d : Distribution,
      buildAs twins (Record.ofWord 7) = .ok d ∧ d.records = twins ∧ d.version = 7 ∧
        d.maxClaim.toNat = 40200 ∧ d.maxEscrows.toNat = 2 ∧ d.audit.ok = true := by
  have few : twins.length ≤ maxNodes := by decide
  obtain ⟨accepted, delivered, -⟩ := construction_spec few 7
  obtain ⟨d, given⟩ := accepted.2 acceptable_twins
  have delivers := delivered d given
  refine ⟨few, d, given, delivers.listed, delivers.numbered, delivers.claim, delivers.escrows, ?_⟩
  rw [delivers.audit]
  rfl

end Distribution

end Vesting
