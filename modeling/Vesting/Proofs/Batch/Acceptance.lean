/-
# Which batches are accepted

What makes a batch acceptable is said here without the checks: it lists something, no
recipient twice, records that make sense as grants and entitle to something, and amounts that
add up to a word. What is wrong with a record behind others is said apart, with the refusal
that belongs to it: of several faults of one record the first of a fixed order counts, and of
several records with faults the first.

Main statements: the check of a batch passes exactly if its recipients are distinct and each
record is sound by itself, and otherwise it refuses the first offence.
-/

import Vesting.Proofs.Batch.Total

namespace Vesting

namespace Record

/-- A record makes sense as a grant. -/
structure Sensible (r : Record) : Prop where
  start_lt_cliff : r.start < r.cliff
  frequency_pos : 0 < r.frequency

/-- A record that nothing is wrong with by itself. -/
structure Sound (r : Record) : Prop extends Sensible r where
  amount_pos : 0 < r.amount
  amount_le : r.amount ≤ wordMax

theorem violations_eq_nil_iff {r : Record} : r.violations = [] ↔ r.Sensible := by
  have positive : 0 < r.frequency ↔ r.frequency ≠ 0 := UInt64.pos_iff_ne_zero
  constructor
  · intro none
    simp only [violations, List.append_eq_nil_iff, ite_eq_right_iff, reduceCtorEq, imp_false,
      UInt64.not_le] at none
    exact ⟨none.1, positive.2 none.2⟩
  · rintro ⟨ordered, frequent⟩
    simp [violations, UInt64.not_le.2 ordered, positive.1 frequent]

instance (r : Record) : Decidable r.Sensible :=
  decidable_of_iff (r.violations = []) violations_eq_nil_iff

/-- The first violation of a record, if there is one. -/
theorem violation_cases {r : Record} {v : Violation} {rest : List Violation}
    (violations : r.violations = v :: rest) :
    v = .cliffNotAfterStart ∧ r.cliff ≤ r.start ∨
      v = .zeroFrequency ∧ r.start < r.cliff ∧ r.frequency = 0 := by
  unfold Record.violations at violations
  split at violations
  · next early =>
      obtain ⟨rfl, -⟩ := List.cons.inj violations
      exact Or.inl ⟨rfl, early⟩
  · next ordered =>
      split at violations
      · next never =>
          obtain ⟨rfl, -⟩ := List.cons.inj violations
          exact Or.inr ⟨rfl, UInt64.not_le.1 ordered, never⟩
      · simp at violations

/-- The step of a total that leaves the range of words. -/
theorem total_error_cases {r : Record} {refusal : Refusal} (refused : r.total = .error refusal) :
    wordMax < r.periodAmount.toNat * r.periods.toNat ∧
        refusal = r.overflow "amount_per_period * number_of_period" ∨
      r.periodAmount.toNat * r.periods.toNat ≤ wordMax ∧ wordMax < r.amount ∧
        refusal = r.overflow "cliff_unlock_amount + periodic" := by
  simp only [total] at refused
  split at refused
  · next beyond =>
      cases refused
      exact Or.inl ⟨beyond, rfl⟩
  · next within =>
      split at refused
      · next beyond =>
          cases refused
          exact Or.inr ⟨Nat.le_of_not_lt within, beyond, rfl⟩
      · cases refused

end Record

namespace Batch

/-- The first thing that is wrong with a record behind others, and how it is refused: that
its recipient is among theirs; that it makes no sense as a grant; that its amount is no word,
in the product already or in the sum; that its amount is zero. -/
inductive Offence (earlier : List Record) (r : Record) : Refusal → Prop
  | repeated (listed : r.recipient ∈ earlier.map (·.recipient)) :
      Offence earlier r (.duplicateRecipient r.recipient.toHex)
  | order (fresh : r.recipient ∉ earlier.map (·.recipient)) (early : r.cliff ≤ r.start) :
      Offence earlier r (report (earlier.length, r, .cliffNotAfterStart)).toRefusal
  | frequency (fresh : r.recipient ∉ earlier.map (·.recipient)) (ordered : r.start < r.cliff)
      (never : r.frequency = 0) :
      Offence earlier r (report (earlier.length, r, .zeroFrequency)).toRefusal
  | product (fresh : r.recipient ∉ earlier.map (·.recipient)) (sensible : r.Sensible)
      (beyond : Record.wordMax < r.periodAmount.toNat * r.periods.toNat) :
      Offence earlier r (r.overflow "amount_per_period * number_of_period")
  | sum (fresh : r.recipient ∉ earlier.map (·.recipient)) (sensible : r.Sensible)
      (within : r.periodAmount.toNat * r.periods.toNat ≤ Record.wordMax)
      (beyond : Record.wordMax < r.amount) :
      Offence earlier r (r.overflow "cliff_unlock_amount + periodic")
  | nothing (fresh : r.recipient ∉ earlier.map (·.recipient)) (sensible : r.Sensible)
      (zero : r.amount = 0) : Offence earlier r (zeroTotal earlier.length r)

/-- A record behind others that nothing is wrong with. -/
structure Passes (earlier : List Record) (r : Record) : Prop extends r.Sound where
  fresh : r.recipient ∉ earlier.map (·.recipient)

theorem Passes.not_offence {earlier : List Record} {r : Record} (passes : Passes earlier r)
    (refusal : Refusal) : ¬ Offence earlier r refusal := by
  intro offence
  cases offence with
  | repeated listed => exact passes.fresh listed
  | order _ early => exact UInt64.not_le.2 passes.start_lt_cliff early
  | frequency _ _ never => exact UInt64.pos_iff_ne_zero.1 passes.frequency_pos never
  | product _ _ beyond =>
      have within := passes.amount_le
      unfold Record.amount at within
      omega
  | sum _ _ _ beyond => exact Nat.not_le_of_lt beyond passes.amount_le
  | nothing _ _ zero => exact Nat.ne_of_gt passes.amount_pos zero

/-- The recipients of some records, latest first. -/
def seen (earlier : List Record) : List Recipient := (earlier.map (·.recipient)).reverse

theorem contains_seen_iff {earlier : List Record} {r : Record} :
    (seen earlier).contains r.recipient = true ↔ r.recipient ∈ earlier.map (·.recipient) := by
  rw [List.contains_iff_mem, seen, List.mem_reverse]

/-- A record passes, or is refused for the first thing that is wrong with it. -/
theorem checkRecord_cases (earlier : List Record) (r : Record) :
    (Passes earlier r ∧ checkRecord earlier.length (seen earlier) r = .ok ()) ∨
      ∃ refusal : Refusal, Offence earlier r refusal ∧
        checkRecord earlier.length (seen earlier) r = .error refusal := by
  unfold checkRecord
  split
  · next listed => exact Or.inr ⟨_, .repeated (contains_seen_iff.1 listed), rfl⟩
  rename_i unlisted
  have fresh : r.recipient ∉ earlier.map (·.recipient) :=
    fun listed => unlisted (contains_seen_iff.2 listed)
  split
  · next v rest violations =>
      rcases Record.violation_cases violations with ⟨rfl, early⟩ | ⟨rfl, ordered, never⟩
      · exact Or.inr ⟨_, .order fresh early, rfl⟩
      · exact Or.inr ⟨_, .frequency fresh ordered never, rfl⟩
  rename_i none
  have sensible : r.Sensible := Record.violations_eq_nil_iff.1 none
  split
  · next refusal refused =>
      rcases Record.total_error_cases refused with ⟨beyond, rfl⟩ | ⟨within, beyond, rfl⟩
      · exact Or.inr ⟨_, .product fresh sensible beyond, rfl⟩
      · exact Or.inr ⟨_, .sum fresh sensible within beyond, rfl⟩
  rename_i total given
  obtain ⟨rfl, inRange⟩ := (r.total_eq_ok_iff total).1 given
  split
  · next zero => exact Or.inr ⟨_, .nothing fresh sensible zero, rfl⟩
  · next nonzero =>
      exact Or.inl ⟨⟨⟨sensible, Nat.pos_of_ne_zero nonzero, inRange⟩, fresh⟩, rfl⟩

theorem seen_concat (earlier : List Record) (r : Record) :
    seen (earlier ++ [r]) = r.recipient :: seen earlier := by
  simp [seen]

/-- The record at a place of a batch passes behind those before it. -/
def PassesAt (records : List Record) (i : Nat) : Prop :=
  ∀ r : Record, records[i]? = some r → Passes (records.take i) r

/-- The refusal of the first record of a batch that something is wrong with. -/
def FirstOffence (records : List Record) (refusal : Refusal) : Prop :=
  ∃ (i : Nat) (r : Record), records[i]? = some r ∧ Offence (records.take i) r refusal ∧
    ∀ j < i, PassesAt records j

/-- Behind records that pass, the rest of a batch passes or has a first offence. -/
theorem checkFrom_cases (earlier later : List Record)
    (passed : ∀ i < earlier.length, PassesAt (earlier ++ later) i) :
    ((∀ i, PassesAt (earlier ++ later) i) ∧
        checkFrom earlier.length (seen earlier) later = .ok ()) ∨
      ∃ refusal : Refusal, FirstOffence (earlier ++ later) refusal ∧
        checkFrom earlier.length (seen earlier) later = .error refusal := by
  induction later generalizing earlier with
  | nil =>
      left
      refine ⟨fun i r place => ?_, rfl⟩
      have inside := (List.getElem?_eq_some_iff.1 place).1
      rw [List.append_nil] at inside
      exact passed i inside r place
  | cons r rest ih =>
      have place : (earlier ++ r :: rest)[earlier.length]? = some r := by simp
      have before : (earlier ++ r :: rest).take earlier.length = earlier := by simp
      rw [checkFrom]
      rcases checkRecord_cases earlier r with ⟨passes, checked⟩ | ⟨refusal, offence, refused⟩
      · rw [checked]
        have split : earlier ++ r :: rest = (earlier ++ [r]) ++ rest := by simp
        have length : earlier.length + 1 = (earlier ++ [r]).length := by simp
        rw [← seen_concat, split, length]
        apply ih
        intro i inside
        rw [← split]
        by_cases here : i = earlier.length
        · subst here
          intro q found
          rw [place] at found
          obtain rfl := Option.some.inj found
          rwa [before]
        · exact passed i (by simp at inside; omega)
      · rw [refused]
        exact Or.inr ⟨refusal, ⟨earlier.length, r, place, before.symm ▸ offence, passed⟩, rfl⟩

/-- A batch passes its check, or the first offence is refused. -/
theorem check_cases (records : List Record) :
    ((∀ i, PassesAt records i) ∧ check records = .ok ()) ∨
      ∃ refusal : Refusal, FirstOffence records refusal ∧ check records = .error refusal :=
  checkFrom_cases [] records (by simp)

/-- Of distinct recipients none is listed before its own place. -/
theorem not_mem_take_of_nodup {records : List Record}
    (distinct : (records.map (·.recipient)).Nodup) {i : Nat} {r : Record}
    (place : records[i]? = some r) : r.recipient ∉ (records.take i).map (·.recipient) := by
  rw [List.Nodup, List.pairwise_map, List.pairwise_iff_getElem] at distinct
  intro listed
  obtain ⟨q, member, same⟩ := List.mem_map.1 listed
  obtain ⟨j, inside', rfl⟩ := List.mem_take_iff_getElem.1 member
  obtain ⟨inside, rfl⟩ := List.getElem?_eq_some_iff.1 place
  obtain ⟨before, _⟩ := Nat.lt_min.1 inside'
  exact distinct j i _ inside before same

/-- Recipients are distinct if none is listed before its own place. -/
theorem nodup_of_not_mem_take {records : List Record}
    (fresh : ∀ (i : Nat) (r : Record), records[i]? = some r →
      r.recipient ∉ (records.take i).map (·.recipient)) :
    (records.map (·.recipient)).Nodup := by
  rw [List.Nodup, List.pairwise_map, List.pairwise_iff_getElem]
  intro i j inside inside' before same
  have member : records[i] ∈ records.take j :=
    List.mem_take_iff_getElem.2 ⟨i, Nat.lt_min.2 ⟨before, inside⟩, rfl⟩
  exact fresh j _ (List.getElem?_eq_getElem inside') (List.mem_map.2 ⟨_, member, same⟩)

/-- Every record passes exactly if the recipients are distinct and each record is sound. -/
theorem forall_passesAt_iff {records : List Record} :
    (∀ i, PassesAt records i) ↔
      (records.map (·.recipient)).Nodup ∧ ∀ r ∈ records, r.Sound := by
  constructor
  · intro passed
    constructor
    · exact nodup_of_not_mem_take fun i r place => (passed i r place).fresh
    · intro r member
      obtain ⟨i, place⟩ := List.getElem?_of_mem member
      exact (passed i r place).toSound
  · rintro ⟨distinct, sound⟩ i r place
    exact ⟨sound r (List.mem_of_getElem? place), not_mem_take_of_nodup distinct place⟩

/-- What makes a batch acceptable. -/
structure Acceptable (records : List Record) : Prop where
  nonempty : records ≠ []
  distinct : (records.map (·.recipient)).Nodup
  sensible : ∀ r ∈ records, r.Sensible
  amount_pos : ∀ r ∈ records, 0 < r.amount
  amount_le : amount records ≤ Record.wordMax

theorem Acceptable.sound {records : List Record} (acceptable : Acceptable records) :
    ∀ r ∈ records, r.Sound := fun r member =>
  ⟨acceptable.sensible r member, acceptable.amount_pos r member,
    Nat.le_trans (amount_le_of_mem member) acceptable.amount_le⟩

theorem check_of_acceptable {records : List Record} (acceptable : Acceptable records) :
    check records = .ok () := by
  have passed := forall_passesAt_iff.2 ⟨acceptable.distinct, acceptable.sound⟩
  rcases check_cases records with ⟨-, checked⟩ | ⟨refusal, ⟨i, r, place, offence, -⟩, -⟩
  · exact checked
  · exact absurd offence ((passed i r place).not_offence refusal)

/-! ## The tree over a batch -/

theorem violationsFrom_eq_nil_iff {index : Nat} {records : List Record} :
    violationsFrom index records = [] ↔ ∀ r ∈ records, r.Sensible := by
  induction records generalizing index with
  | nil => simp [violationsFrom]
  | cons r rest ih =>
      rw [violationsFrom, List.append_eq_nil_iff, List.map_eq_nil_iff,
        Record.violations_eq_nil_iff, ih, List.forall_mem_cons]

/-- There is a tree over a batch exactly if it lists something and all of it makes sense. -/
theorem exists_tree_iff {records : List Record} :
    (∃ tree : Merkle.Tree, Batch.tree records = .ok tree) ↔
      records ≠ [] ∧ ∀ r ∈ records, r.Sensible := by
  rw [← violationsFrom_eq_nil_iff, ← violations]
  unfold Batch.tree
  constructor
  · rintro ⟨tree, built⟩
    split at built
    · cases built
    rename_i nonempty
    split at built
    · cases built
    rename_i none
    exact ⟨nonempty, none⟩
  · rintro ⟨nonempty, none⟩
    rw [dif_neg nonempty]
    simp only [none]
    exact ⟨_, rfl⟩

end Batch

end Vesting
