/-
# Plans report the difference

A plan is made exactly if the new records are built and their root is a new one. Main
statement: it holds what was built, and it reports who is new and who is gone, in the order of
the records that list them. For records that were amended by dropping recipients and adding
records behind them, the report can be read off the amendment: who was added without having
been there, and who was dropped without being added again.
-/

import Vesting.Proofs.Amendment.Recipients
import Vesting.Proofs.Distribution.Construction

namespace Vesting

variable {currentRoot : Bytes} {version : Value} {old new rest extra : List Record}
  {d : Distribution} {a : Amendment}

namespace Amendment

/-! ## Plans -/

/-- A rotation to the root that is left is refused for that. -/
theorem planAs_of_same_root (built : Distribution.buildAs new version = .ok d)
    (old : Option (List Record)) :
    planAs d.root new version old = .error (.refused (.duplicateRoot (toHex d.root))) := by
  simp only [planAs, built, toward, Grant.isNoop, beq_self_eq_true, if_true]
  rfl

theorem planAs_of_new_root (built : Distribution.buildAs new version = .ok d)
    (differs : d.root ≠ currentRoot) (old : List Record) :
    planAs currentRoot new version (some old) =
      .ok ⟨currentRoot, d, absentees new old, absentees old new⟩ := by
  have changes : ¬ (currentRoot == d.root) = true := fun same => differs (beq_iff_eq.1 same).symm
  simp only [planAs, built, toward, Grant.isNoop, changes, Bool.false_eq_true, if_false]
  rfl

/-- Records that are not built are not planned for, for the same reason. -/
theorem planAs_of_not_built {failure : Failure}
    (failed : Distribution.buildAs new version = .error failure) (currentRoot : Bytes)
    (old : Option (List Record)) : planAs currentRoot new version old = .error failure := by
  simp only [planAs, failed]

/-- A rotation is planned exactly if the new records are built and their root is not the one
that is left. -/
theorem planAs_eq_ok_iff :
    planAs currentRoot new version (some old) = .ok a ↔
      ∃ d, Distribution.buildAs new version = .ok d ∧ d.root ≠ currentRoot ∧
        a = ⟨currentRoot, d, absentees new old, absentees old new⟩ := by
  constructor
  · intro planned
    cases built : Distribution.buildAs new version with
    | error failure =>
        rw [planAs_of_not_built built] at planned
        cases planned
    | ok d =>
        by_cases same : d.root = currentRoot
        · subst same
          rw [planAs_of_same_root built] at planned
          cases planned
        · rw [planAs_of_new_root built same] at planned
          exact ⟨d, rfl, same, (Except.ok.inj planned).symm⟩
  · rintro ⟨d, built, differs, rfl⟩
    exact planAs_of_new_root built differs old

/-! ## What is reported -/

theorem absentees_eq (records others : List Record) : absentees records others =
    (records.map (·.recipient)).filter (· ∉ others.map (·.recipient)) := by
  simp only [absentees, List.contains_eq_mem, decide_not]

/-- What an amendment reports is the difference of the old and the new records: without
repetition and in the order of the new records the recipients that only they have, and in the
order of the old records and as often as there those that only the old ones have. -/
structure Reports (a : Amendment) (old new : List Record) : Prop where
  added_sublist : a.added.Sublist (new.map (·.recipient))
  added_nodup : a.added.Nodup
  mem_added : ∀ r, r ∈ a.added ↔ r ∈ new.map (·.recipient) ∧ r ∉ old.map (·.recipient)
  removed_sublist : a.removed.Sublist (old.map (·.recipient))
  mem_removed : ∀ r, r ∈ a.removed ↔ r ∈ old.map (·.recipient) ∧ r ∉ new.map (·.recipient)
  count_removed : ∀ r ∈ a.removed, a.removed.count r = (old.map (·.recipient)).count r

theorem reports_of_distinct (distinct : (new.map (·.recipient)).Nodup)
    (added : a.added = absentees new old) (removed : a.removed = absentees old new) :
    a.Reports old new := by
  rw [absentees_eq] at added removed
  exact
    { added_sublist := added ▸ List.filter_sublist
      added_nodup := added ▸ distinct.filter _
      mem_added := fun r => by rw [added, List.mem_filter, decide_eq_true_iff]
      removed_sublist := removed ▸ List.filter_sublist
      mem_removed := fun r => by rw [removed, List.mem_filter, decide_eq_true_iff]
      count_removed := fun r gone => by
        rw [removed] at gone ⊢
        exact List.count_filter (List.mem_filter.1 gone).2 }

/-! ## Amended records -/

theorem mem_recipients_without {listed : List Bytes} {r : Recipient} :
    r ∈ (Batch.without old listed).map (·.recipient) ↔
      r ∈ old.map (·.recipient) ∧ r.bytes ∉ listed := by
  simp only [Batch.without, List.mem_map, List.mem_filter, decide_eq_true_iff]
  constructor
  · rintro ⟨q, ⟨member, kept⟩, rfl⟩
    exact ⟨⟨q, member, rfl⟩, kept⟩
  · rintro ⟨⟨q, member, rfl⟩, kept⟩
    exact ⟨q, ⟨member, kept⟩, rfl⟩

variable {keys : List Key}

/-- Of records behind what dropping leaves, the new recipients are those that were not there
before it. -/
theorem absentees_amended_old (dropped : Batch.remove old keys = .ok rest)
    (added : Batch.add rest extra = .ok new) :
    absentees new old = (extra.map (·.recipient)).filter (· ∉ old.map (·.recipient)) := by
  obtain ⟨listed, -, -, rfl⟩ := Batch.remove_eq_ok_iff.1 dropped
  obtain ⟨-, rfl⟩ := Batch.add_eq_ok_iff.1 added
  rw [absentees_eq, List.map_append, List.filter_append, List.append_left_eq_self,
    List.filter_eq_nil_iff]
  intro r survives
  simpa using (mem_recipients_without.1 survives).1

/-- Gone are those that were dropped, unless they were added again. -/
theorem absentees_old_amended (dropped : Batch.remove old keys = .ok rest)
    (added : Batch.add rest extra = .ok new) :
    absentees old new = (old.map (·.recipient)).filter fun r =>
      (∃ key ∈ keys, key.bytes? = .ok r.bytes) ∧ r ∉ extra.map (·.recipient) := by
  obtain ⟨listed, read, -, rfl⟩ := Batch.remove_eq_ok_iff.1 dropped
  obtain ⟨-, rfl⟩ := Batch.add_eq_ok_iff.1 added
  rw [absentees_eq]
  refine List.filter_congr fun r member => decide_eq_decide.2 ?_
  rw [List.map_append, List.mem_append, not_or, mem_recipients_without, ← read.mem_iff]
  simp only [member, true_and, not_not]

/-- Plans report the true difference. A plan is made exactly if the new records are built and
their root is not the one that is left; if only the root stands against it, this is the
refusal, and otherwise what stands against building. A plan holds what was built and reports
the difference of the old and the new records. If the new records are the old ones after some
recipients were dropped and records were added, the report says, in their order, who was added
and was not among the old recipients, and, in the old order, who was dropped and not added
again. -/
theorem plan_reports_difference (currentRoot : Bytes) (version : Value) (old new : List Record) :
    ((∃ a, planAs currentRoot new version (some old) = .ok a) ↔
      ∃ d, Distribution.buildAs new version = .ok d ∧ d.root ≠ currentRoot) ∧
    (∀ d, Distribution.buildAs new version = .ok d → d.root = currentRoot →
      planAs currentRoot new version (some old) =
        .error (.refused (.duplicateRoot (toHex currentRoot)))) ∧
    (∀ failure, Distribution.buildAs new version = .error failure →
      planAs currentRoot new version (some old) = .error failure) ∧
    ∀ a, planAs currentRoot new version (some old) = .ok a →
      a.oldRoot = currentRoot ∧ Distribution.buildAs new version = .ok a.distribution ∧
      a.Reports old new ∧
      ∀ keys rest extra, Batch.remove old keys = .ok rest → Batch.add rest extra = .ok new →
        a.added = (extra.map (·.recipient)).filter (· ∉ old.map (·.recipient)) ∧
        a.removed = (old.map (·.recipient)).filter fun r =>
          (∃ key ∈ keys, key.bytes? = .ok r.bytes) ∧ r ∉ extra.map (·.recipient) := by
  refine ⟨⟨?_, ?_⟩, ?_, ?_, ?_⟩
  · rintro ⟨a, planned⟩
    obtain ⟨d, built, differs, -⟩ := planAs_eq_ok_iff.1 planned
    exact ⟨d, built, differs⟩
  · rintro ⟨d, built, differs⟩
    exact ⟨_, planAs_eq_ok_iff.2 ⟨d, built, differs, rfl⟩⟩
  · rintro d built rfl
    exact planAs_of_same_root built (some old)
  · intro failure failed
    exact planAs_of_not_built failed currentRoot (some old)
  · intro a planned
    obtain ⟨d, built, -, rfl⟩ := planAs_eq_ok_iff.1 planned
    obtain ⟨acceptable, -, -⟩ := Distribution.exists_ofTree_of_buildAs_eq_ok built
    refine ⟨rfl, built, reports_of_distinct acceptable.distinct rfl rfl, ?_⟩
    intro keys rest extra dropped added
    exact ⟨absentees_amended_old dropped added, absentees_old_amended dropped added⟩

/-- Three recipients, and what is left after two of them were dropped and one of these and
another were added. -/
def committed : List Record := [.ofAccount 1, .ofAccount 2, .ofAccount 3]

def amended : List Record := [.ofAccount 1, .ofAccount 3, .ofAccount 4]

/-- The names of the recipients that are dropped. -/
def dropNames : List Key :=
  [.text (Record.ofAccount 2).recipient.toHex, .bytes (Record.ofAccount 3).recipient.bytes]

theorem acceptable_amended : Batch.Acceptable amended where
  nonempty := by decide
  distinct := by decide
  sensible := by decide
  amount_pos := by decide
  amount_le := by decide

/-- The recipient that was dropped and added again is reported neither as new nor as gone. -/
theorem plan_reports_difference_amended :
    Batch.remove committed dropNames = .ok [.ofAccount 1] ∧
      Batch.add [.ofAccount 1] [.ofAccount 3, .ofAccount 4] = .ok amended ∧
      ∃ a, planAs [] amended (Record.ofWord 7) (some committed) = .ok a ∧
        a.added = [(Record.ofAccount 4).recipient] ∧
        a.removed = [(Record.ofAccount 2).recipient] := by
  obtain ⟨plans, -, -, reports⟩ :=
    plan_reports_difference [] (Record.ofWord 7) committed amended
  obtain ⟨tree, -, built⟩ := Distribution.buildAs_of_acceptable acceptable_amended (by decide) 7
  have differs : tree.root ≠ [] := List.ne_nil_of_length_pos (tree.length_root ▸ by decide)
  obtain ⟨a, planned⟩ := plans.2 ⟨_, built, differs⟩
  have read : Key.ReadAs dropNames
      [(Record.ofAccount 2).recipient.bytes, (Record.ofAccount 3).recipient.bytes] :=
    .cons (ofHex_toHex (Record.ofAccount 2).recipient.bytes) (.cons rfl .nil)
  have dropped : Batch.remove committed dropNames = .ok [.ofAccount 1] :=
    Batch.remove_eq_ok_iff.2 ⟨_, read, by simp [Batch.AllListed, committed], rfl⟩
  have added : Batch.add [.ofAccount 1] [.ofAccount 3, .ofAccount 4] = .ok amended :=
    Batch.add_eq_ok_iff.2 ⟨⟨by decide, by decide⟩, rfl⟩
  obtain ⟨-, -, -, amends⟩ := reports a planned
  obtain ⟨arrived, left⟩ := amends dropNames _ _ dropped added
  refine ⟨dropped, added, a, planned, ?_, ?_⟩
  · rw [arrived]
    decide
  · rw [left]
    decide

end Amendment

end Vesting
