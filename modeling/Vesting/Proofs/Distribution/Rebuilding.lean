/-
# What an audit does not ask

An audit asks whether a distribution is consistent, not whether it is worth anything: records
that entitle to nothing are refused when a batch is issued, and a total of nothing when a
grant is opened. Main statement: what passes an audit is built again, alike but for the
proofs, unless a record of it entitles to nothing, and then it is refused for the first such
record; and a grant is opened with it unless no record of it entitles to anything.
-/

import Vesting.Proofs.Distribution.Construction
import Vesting.Proofs.Grant.Calls

namespace Vesting

open Merkle

namespace Batch

variable {records : List Record}

theorem amount_pos_iff : 0 < amount records ↔ ∃ r ∈ records, 0 < r.amount := by
  induction records with
  | nil => simp
  | cons r rest ih =>
      rw [amount_cons, Nat.add_pos_iff_pos_or_pos, ih]
      simp

/-- The first record of a batch that entitles to nothing, and its place. -/
structure FirstIdle (records : List Record) (i : Nat) (r : Record) : Prop where
  place : records[i]? = some r
  idle : r.amount = 0
  first : ∀ (j : Nat) (q : Record), j < i → records[j]? = some q → 0 < q.amount

/-- If nothing is wrong with a batch but that records may entitle to nothing, then it is
refused for the first of these. -/
theorem Refused.exists_firstIdle {refusal : Refusal} (refused : Refused records refusal)
    (nonempty : records ≠ []) (distinct : (records.map (·.recipient)).Nodup)
    (sensible : ∀ r ∈ records, r.Sensible) (inRange : amount records ≤ Record.wordMax) :
    ∃ (i : Nat) (r : Record), FirstIdle records i r ∧ refusal = zeroTotal i r := by
  cases refused with
  | empty nothing => exact absurd nothing nonempty
  | offence found =>
      obtain ⟨i, r, place, offence, passed⟩ := found
      have member := List.mem_of_getElem? place
      have small : r.amount ≤ Record.wordMax := Nat.le_trans (amount_le_of_mem member) inRange
      have index : (records.take i).length = i :=
        List.length_take_of_le (Nat.le_of_lt (List.getElem?_eq_some_iff.1 place).1)
      cases offence with
      | repeated listed => exact absurd listed (not_mem_take_of_nodup distinct place)
      | order _ early => exact absurd (sensible r member).start_lt_cliff (UInt64.not_lt.2 early)
      | frequency _ _ never =>
          exact absurd never (UInt64.pos_iff_ne_zero.1 (sensible r member).frequency_pos)
      | product _ _ beyond =>
          unfold Record.amount at small
          omega
      | sum _ _ _ beyond => exact absurd small (Nat.not_le_of_lt beyond)
      | nothing _ _ zero =>
          rw [index]
          refine ⟨i, r, ⟨place, zero, ?_⟩, rfl⟩
          intro j q before there
          exact (passed j before q there).amount_pos
  | sum _ beyond =>
      obtain ⟨i, r, -, -, after, -⟩ := beyond
      exact absurd (Nat.le_trans (amount_take_le records _) inRange) (Nat.not_le_of_lt after)

end Batch

namespace Distribution

variable {d : Distribution}

theorem Consistent.length_records (consistent : d.Consistent) :
    d.records.length = d.maxEscrows.toNat := by
  rw [Distribution.records, List.length_map, consistent.count]

theorem Consistent.amount_le (consistent : d.Consistent) :
    Batch.amount d.records ≤ Record.wordMax := by
  rw [consistent.claim]
  exact word_le_wordMax d.maxClaim

theorem Consistent.nonempty_and_sensible (consistent : d.Consistent) :
    d.records ≠ [] ∧ ∀ r ∈ d.records, r.Sensible := by
  obtain ⟨tree, built, -⟩ := consistent.root
  exact Batch.exists_tree_iff.1 ⟨tree, built⟩

/-- The records of a consistent distribution are acceptable if each entitles to something. -/
theorem Consistent.acceptable_iff (consistent : d.Consistent) :
    Batch.Acceptable d.records ↔ ∀ r ∈ d.records, 0 < r.amount := by
  obtain ⟨nonempty, sensible⟩ := consistent.nonempty_and_sensible
  constructor
  · exact fun acceptable => acceptable.amount_pos
  · intro positive
    exact ⟨nonempty, consistent.distinct, sensible, positive, consistent.amount_le⟩

/-- A consistent distribution that is built again is the same but for its proofs. -/
theorem Consistent.ofTree_eq (consistent : d.Consistent) {tree : Merkle.Tree}
    (built : Batch.tree d.records = .ok tree) :
    { ofTree tree d.records d.version with nodes := d.nodes } = d := by
  obtain ⟨other, grown, root⟩ := consistent.root
  obtain rfl : other = tree := Except.ok.inj (grown.symm.trans built)
  simp only [ofTree, root, consistent.claim, consistent.length_records, UInt64.ofNat_toNat]

theorem Consistent.buildAs_eq_ok (consistent : d.Consistent)
    (positive : ∀ r ∈ d.records, 0 < r.amount) :
    ∃ again : Distribution, buildAs d.records (Record.ofWord d.version) = .ok again ∧
      { again with nodes := d.nodes } = d ∧ again.records = d.records := by
  have few : d.records.length ≤ maxNodes := consistent.length_records ▸ consistent.limit
  have acceptable := consistent.acceptable_iff.2 positive
  obtain ⟨tree, built, given⟩ := buildAs_of_acceptable acceptable few d.version
  exact ⟨_, given, consistent.ofTree_eq built, records_ofTree built⟩

theorem Consistent.buildAs_eq_error (consistent : d.Consistent)
    (idle : ¬ ∀ r ∈ d.records, 0 < r.amount) (version : Value) :
    ∃ (i : Nat) (r : Record), Batch.FirstIdle d.records i r ∧
      buildAs d.records version = .error (.refused (Batch.zeroTotal i r)) := by
  have unacceptable : ¬ Batch.Acceptable d.records := fun acceptable =>
    idle (consistent.acceptable_iff.1 acceptable)
  obtain ⟨nonempty, sensible⟩ := consistent.nonempty_and_sensible
  obtain ⟨refusal, refused, given⟩ := buildAs_of_not_acceptable unacceptable version
  obtain ⟨i, r, first, rfl⟩ :=
    refused.exists_firstIdle nonempty consistent.distinct sensible consistent.amount_le
  exact ⟨i, r, first, given⟩

/-- A grant is opened with a consistent distribution that entitles to something. -/
theorem Consistent.ofDistribution_eq_ok (consistent : d.Consistent)
    (something : 0 < Batch.amount d.records) (creator : Bytes) :
    Grant.ofDistribution d creator =
      .ok (.blank creator d.root d.maxClaim.toNat d.maxEscrows.toNat d.version.toNat) := by
  obtain ⟨tree, -, root⟩ := consistent.root
  have size : d.root.length = hashSize := root ▸ tree.length_root
  have escrows : 0 < d.maxEscrows.toNat := by
    rw [← consistent.length_records]
    exact List.length_pos_iff.2 consistent.nonempty_and_sensible.1
  rw [consistent.claim] at something
  have claim_le := word_le_wordMax d.maxClaim
  have escrows_le := word_le_wordMax d.maxEscrows
  exact Grant.create_eq_ok_iff.2 ⟨by omega, by omega, size, rfl⟩

theorem Consistent.ofDistribution_eq_error (consistent : d.Consistent)
    (nothing : Batch.amount d.records = 0) (creator : Bytes) :
    Grant.ofDistribution d creator = .error (Grant.badCeilings 0 d.maxEscrows.toNat) := by
  rw [consistent.claim] at nothing
  rw [Grant.ofDistribution, nothing]
  rfl

theorem Consistent.buildAs_spec (consistent : d.Consistent) :
    ((∃ again : Distribution, buildAs d.records (Record.ofWord d.version) = .ok again) ↔
        ∀ r ∈ d.records, 0 < r.amount) ∧
      (∀ again : Distribution, buildAs d.records (Record.ofWord d.version) = .ok again →
        { again with nodes := d.nodes } = d ∧ again.records = d.records) ∧
      ∀ failure : Failure, buildAs d.records (Record.ofWord d.version) = .error failure →
        ∃ (i : Nat) (r : Record), Batch.FirstIdle d.records i r ∧
          failure = .refused (Batch.zeroTotal i r) := by
  by_cases positive : ∀ r ∈ d.records, 0 < r.amount
  · obtain ⟨again, given, alike⟩ := consistent.buildAs_eq_ok positive
    rw [given]
    refine ⟨⟨fun _ => positive, fun _ => ⟨again, rfl⟩⟩, ?_, nofun⟩
    intro other same
    cases same
    exact alike
  · obtain ⟨i, r, first, refused⟩ := consistent.buildAs_eq_error positive (Record.ofWord d.version)
    rw [refused]
    refine ⟨⟨nofun, fun claimed => absurd claimed positive⟩, nofun, ?_⟩
    intro failure same
    cases same
    exact ⟨i, r, first, rfl⟩

theorem Consistent.ofDistribution_spec (consistent : d.Consistent) (creator : Bytes) :
    ((∃ g : Grant, Grant.ofDistribution d creator = .ok g) ↔ ∃ r ∈ d.records, 0 < r.amount) ∧
      ∀ refusal : Refusal, Grant.ofDistribution d creator = .error refusal →
        refusal = Grant.badCeilings 0 d.maxEscrows.toNat := by
  rw [← Batch.amount_pos_iff]
  rcases Nat.eq_zero_or_pos (Batch.amount d.records) with nothing | something
  · rw [consistent.ofDistribution_eq_error nothing]
    refine ⟨⟨nofun, fun something => absurd nothing (Nat.ne_of_gt something)⟩, ?_⟩
    intro refusal same
    cases same
    rfl
  · rw [consistent.ofDistribution_eq_ok something]
    exact ⟨⟨fun _ => something, fun _ => ⟨_, rfl⟩⟩, nofun⟩

/-- A distribution that passes an audit is built again exactly if each record entitles to
something. What is built then is the same but for its proofs, and otherwise the first record
that entitles to nothing is refused. A grant is opened with it exactly if some record entitles
to something, and otherwise its ceilings are refused. -/
theorem rebuilding_spec (audited : d.audit.ok = true) (creator : Bytes) :
    ((∃ again : Distribution, buildAs d.records (Record.ofWord d.version) = .ok again) ↔
        ∀ r ∈ d.records, 0 < r.amount) ∧
      (∀ again : Distribution, buildAs d.records (Record.ofWord d.version) = .ok again →
        { again with nodes := d.nodes } = d ∧ again.records = d.records) ∧
      (∀ failure : Failure, buildAs d.records (Record.ofWord d.version) = .error failure →
        ∃ (i : Nat) (r : Record), Batch.FirstIdle d.records i r ∧
          failure = .refused (Batch.zeroTotal i r)) ∧
      ((∃ g : Grant, Grant.ofDistribution d creator = .ok g) ↔
        ∃ r ∈ d.records, 0 < r.amount) ∧
      ∀ refusal : Refusal, Grant.ofDistribution d creator = .error refusal →
        refusal = Grant.badCeilings 0 d.maxEscrows.toNat := by
  have consistent := ok_audit_iff.1 audited
  obtain ⟨built, alike, refused⟩ := consistent.buildAs_spec
  exact ⟨built, alike, refused, consistent.ofDistribution_spec creator⟩

/-- A record that makes sense as a grant but entitles to nothing. -/
def idleRecord : Record := { Record.ofAccount 1 with cliffAmount := 0, periodAmount := 0 }

/-- The distribution of that record alone, whose leaf is the root. -/
def idle : Distribution := ⟨idleRecord.leaf, 0, 0, 1, [⟨idleRecord, some []⟩]⟩

theorem consistent_idle : idle.Consistent where
  limit := by decide
  count := by decide
  distinct := by decide
  claim := by decide
  root := by
    have issuable : idle.records ≠ [] ∧ ∀ r ∈ idle.records, r.Sensible := by decide
    obtain ⟨tree, built⟩ := Batch.exists_tree_iff.2 issuable
    have reached := Batch.top_layers_of_tree_eq_ok built
    exact ⟨tree, built, (Option.some.inj reached).symm⟩
  proofs n member := by
    obtain rfl := List.mem_singleton.1 member
    exact ⟨[], rfl, beq_self_eq_true _⟩

/-- An audit passes what is neither built again nor good to open a grant with. -/
theorem audited_idle_refused :
    idle.audit.ok = true ∧
      buildAs idle.records (Record.ofWord idle.version) =
        .error (.refused (Batch.zeroTotal 0 idleRecord)) ∧
      Grant.ofDistribution idle [] = .error (Grant.badCeilings 0 1) :=
  ⟨ok_audit_iff.2 consistent_idle, rfl, rfl⟩

/-- A record that entitles to something, and one that does not. -/
def half : List Record := [.ofAccount 2, idleRecord]

/-- A grant is opened with a distribution that is not built again. -/
theorem rebuilding_spec_half :
    ∃ tree : Merkle.Tree, Batch.tree half = .ok tree ∧ (ofTree tree half 0).audit.ok = true ∧
      (∃ g : Grant, Grant.ofDistribution (ofTree tree half 0) [] = .ok g) ∧
      ¬ ∃ again : Distribution,
        buildAs (ofTree tree half 0).records (Record.ofWord (ofTree tree half 0).version) =
          .ok again := by
  have issuable : half ≠ [] ∧ ∀ r ∈ half, r.Sensible := by decide
  obtain ⟨tree, built⟩ := Batch.exists_tree_iff.2 issuable
  have consistent : (ofTree tree half 0).Consistent :=
    consistent_ofTree (by decide) (by decide) (by decide) built
  have audited := ok_audit_iff.2 consistent
  obtain ⟨rebuilt, -, -, opened, -⟩ := rebuilding_spec audited []
  rw [records_ofTree built] at rebuilt opened
  refine ⟨tree, built, audited, opened.2 (by decide), fun given => ?_⟩
  rw [records_ofTree built] at given
  exact absurd (rebuilt.1 given) (by decide)

end Distribution

end Vesting
