/-
# What is drawn for sample records

A record takes nine draws, of which eight repeat until the number is in its range. Here the
draws are told as they are meant, each repeated for as long as it takes. Main statements: this
is what drawing gives, for every state of the twister; the fields that are made of the draws
are those of a record; and the record makes sense as a grant and entitles to something, but
not to much.
-/

import Vesting.Proofs.Batch.Acceptance
import Vesting.Proofs.Distribution.Reading
import Vesting.Proofs.Twister.Drawing
import Vesting.Sample

namespace Vesting.Sample

variable {t u : Twister} {d : Draws}

/-! ## One record -/

/-- What is drawn for one record if every number is drawn for as long as it takes. -/
inductive Drawn : Twister → Draws → Twister → Prop
  | inOrder {t₀ t₁ t₂ t₃ t₄ t₅ t₆ t₇ t₈ t₉ : Twister} {start word delay frequency cliffAmount
      periodAmount periods updateMode cancelMode : Nat}
      (starting : t₀.Lands 0 1000 start t₁)
      (naming : t₁.wide 8 = (word, t₂))
      (waiting : t₂.Lands 1 1000 delay t₃)
      (recurring : t₃.Lands 1 100 frequency t₄)
      (atCliff : t₄.Lands 0 1000 cliffAmount t₅)
      (each : t₅.Lands 1 1000 periodAmount t₆)
      (counting : t₆.Lands 1 1000 periods t₇)
      (updating : t₇.Lands 0 4 updateMode t₈)
      (cancelling : t₈.Lands 0 4 cancelMode t₉) :
      Drawn t₀ ⟨start, Bytes.littleEndian 32 word, delay, frequency, cliffAmount, periodAmount,
        periods, updateMode, cancelMode⟩ t₉

/-- Drawing never gives up. -/
theorem exists_draws_eq (whole : t.Whole) :
    ∃ (d : Draws) (u : Twister), draws t = (d, u) ∧ Drawn t d u ∧ u.Whole := by
  obtain ⟨start, t₁, first, starting, whole₁⟩ :=
    Twister.exists_range_eq whole (show 0 < 1000 by decide) (by decide)
  obtain ⟨word, t₂, second, whole₂⟩ := Twister.exists_wide_eq whole₁ 8
  obtain ⟨delay, t₃, third, waiting, whole₃⟩ :=
    Twister.exists_range_eq whole₂ (show 1 < 1000 by decide) (by decide)
  obtain ⟨frequency, t₄, fourth, recurring, whole₄⟩ :=
    Twister.exists_range_eq whole₃ (show 1 < 100 by decide) (by decide)
  obtain ⟨cliffAmount, t₅, fifth, atCliff, whole₅⟩ :=
    Twister.exists_range_eq whole₄ (show 0 < 1000 by decide) (by decide)
  obtain ⟨periodAmount, t₆, sixth, each, whole₆⟩ :=
    Twister.exists_range_eq whole₅ (show 1 < 1000 by decide) (by decide)
  obtain ⟨periods, t₇, seventh, counting, whole₇⟩ :=
    Twister.exists_range_eq whole₆ (show 1 < 1000 by decide) (by decide)
  obtain ⟨updateMode, t₈, eighth, updating, whole₈⟩ :=
    Twister.exists_range_eq whole₇ (show 0 < 4 by decide) (by decide)
  obtain ⟨cancelMode, t₉, ninth, cancelling, whole₉⟩ :=
    Twister.exists_range_eq whole₈ (show 0 < 4 by decide) (by decide)
  -- the draws of the chain are those that the record takes, in the same order
  refine ⟨_, t₉, ?_, .inOrder starting second waiting recurring atCliff each counting updating
    cancelling, whole₉⟩
  simp only [draws, first, second, third, fourth, fifth, sixth, seventh, eighth, ninth]

/-- The ranges that the draws for a record are in. -/
structure Draws.InRange (d : Draws) : Prop where
  start : d.start < 1000
  recipient : d.recipient.length = 32
  delay : 1 ≤ d.delay ∧ d.delay < 1000
  frequency : 1 ≤ d.frequency ∧ d.frequency < 100
  cliffAmount : d.cliffAmount < 1000
  periodAmount : 1 ≤ d.periodAmount ∧ d.periodAmount < 1000
  periods : 1 ≤ d.periods ∧ d.periods < 1000
  updateMode : d.updateMode < 4
  cancelMode : d.cancelMode < 4

theorem Drawn.inRange (drawn : Drawn t d u) : d.InRange := by
  obtain ⟨starting, -, waiting, recurring, atCliff, each, counting, updating, cancelling⟩ := drawn
  exact ⟨starting.mem.2, Bytes.length_littleEndian 32 _, waiting.mem, recurring.mem,
    atCliff.mem.2, each.mem, counting.mem, updating.mem.2, cancelling.mem.2⟩

/-- The record that is made of what has been drawn. -/
def Draws.record (d : Draws) (sized : d.recipient.length = 32) : Record where
  recipient := ⟨d.recipient, sized⟩
  start := .ofNat d.start
  cliff := .ofNat (d.start + d.delay)
  frequency := .ofNat d.frequency
  cliffAmount := .ofNat d.cliffAmount
  periodAmount := .ofNat d.periodAmount
  periods := .ofNat d.periods
  updateMode := .ofNat d.updateMode
  cancelMode := .ofNat d.cancelMode

theorem toNat_word {n : Nat} (small : n < 2000) : (UInt64.ofNat n).toNat = n :=
  UInt64.toNat_ofNat_of_lt (Nat.lt_trans small (by decide))

theorem toNat_byte {n : Nat} (small : n < 4) : (UInt8.ofNat n).toNat = n :=
  UInt8.toNat_ofNat_of_lt' (Nat.lt_trans small (by decide))

/-- The fields of a record, with its recipient as bytes. -/
def plainFields (r : Record) : Fields :=
  ("recipient", .bytes r.recipient.bytes) :: r.fields.tail

/-- A record is accepted from its fields if the recipient is given as bytes. -/
theorem ofFields_plainFields (r : Record) : Record.ofFields (plainFields r) = .ok r := by
  have recipient : Schema.recipient (.bytes r.recipient.bytes) = .done r.recipient := by
    simp only [Schema.recipient, Schema.bytesFrom, Reading.andThen, dif_pos r.recipient.size]
  have known : Schema.only (plainFields r) Record.columns = .done () :=
    Schema.only_eq_done (by simp [plainFields, Record.fields, Record.columns])
  have reads : Record.readFields (plainFields r) = .done r := by
    simp [Record.readFields, Schema.required, Schema.optional, Fields.get?, plainFields,
      Record.fields, recipient, Schema.word_ofWord, Schema.byte_toNat, Reading.under]
    rfl
  rw [Record.ofFields, Record.read, reads, known]
  rfl

namespace Draws.InRange

variable (inRange : d.InRange)
include inRange

theorem toNat_cliff :
    (d.record inRange.recipient).cliff.toNat = d.start + d.delay := by
  have := inRange.start
  have := inRange.delay
  exact toNat_word (by omega)

theorem fields_eq : d.fields = plainFields (d.record inRange.recipient) := by
  have word {n : Nat} (small : n < 1000) : Value.int n = Record.ofWord (.ofNat n) := by
    rw [Record.ofWord, toNat_word (Nat.lt_trans small (by decide))]
  have byte {n : Nat} (small : n < 4) : Value.int n = .int (UInt8.ofNat n).toNat := by
    rw [toNat_byte small]
  have cliff : Value.int (d.start + d.delay) =
      Record.ofWord (d.record inRange.recipient).cliff := by
    rw [Record.ofWord, inRange.toNat_cliff, Int.natCast_add]
  rw [Draws.fields, cliff, word inRange.start,
    word (Nat.lt_trans inRange.frequency.2 (by decide)), word inRange.cliffAmount,
    word inRange.periodAmount.2, word inRange.periods.2, byte inRange.updateMode,
    byte inRange.cancelMode]
  rfl

/-- What has been drawn for a record is accepted as one. -/
theorem ofFields_fields : Record.ofFields d.fields = .ok (d.record inRange.recipient) := by
  rw [inRange.fields_eq, ofFields_plainFields]

end Draws.InRange

/-- A record that is in order and entitles to something, but not to much. -/
structure Usable (r : Record) : Prop where
  violations : r.violations = []
  total : r.total = .ok r.amount
  amount_pos : 1 ≤ r.amount
  amount_le : r.amount ≤ 999000

theorem Draws.InRange.amount_eq (inRange : d.InRange) :
    (d.record inRange.recipient).amount = d.cliffAmount + d.periodAmount * d.periods := by
  have word {n : Nat} (small : n < 1000) : (UInt64.ofNat n).toNat = n :=
    toNat_word (Nat.lt_trans small (by decide))
  rw [Record.amount, Draws.record, word inRange.cliffAmount, word inRange.periodAmount.2,
    word inRange.periods.2]

/-- What has been drawn makes a usable record. -/
theorem Draws.InRange.usable (inRange : d.InRange) :
    Usable (d.record inRange.recipient) := by
  have positive : 1 * 1 ≤ d.periodAmount * d.periods :=
    Nat.mul_le_mul inRange.periodAmount.1 inRange.periods.1
  have small : d.periodAmount * d.periods ≤ 999 * 999 :=
    Nat.mul_le_mul (Nat.le_of_lt_succ inRange.periodAmount.2)
      (Nat.le_of_lt_succ inRange.periods.2)
  have amount_le : (d.record inRange.recipient).amount ≤ 999000 := by
    have := inRange.cliffAmount
    rw [inRange.amount_eq]
    omega
  have ordered : (d.record inRange.recipient).start < (d.record inRange.recipient).cliff := by
    have start : (d.record inRange.recipient).start.toNat = d.start :=
      toNat_word (Nat.lt_trans inRange.start (by decide))
    rw [UInt64.lt_iff_toNat_lt, start, inRange.toNat_cliff]
    exact Nat.lt_add_of_pos_right inRange.delay.1
  have frequent : 0 < (d.record inRange.recipient).frequency := by
    have frequency : (d.record inRange.recipient).frequency.toNat = d.frequency :=
      toNat_word (Nat.lt_trans inRange.frequency.2 (by decide))
    rw [UInt64.lt_iff_toNat_lt, frequency]
    exact inRange.frequency.1
  refine ⟨Record.violations_eq_nil_iff.2 ⟨ordered, frequent⟩,
    (Record.total_eq_ok_iff _ _).2 ⟨rfl, Nat.le_trans amount_le (by decide)⟩, ?_, amount_le⟩
  rw [inRange.amount_eq]
  exact Nat.le_trans positive (Nat.le_add_left _ _)

/-! ## Many records -/

/-- Records that are made of one draw after the other. -/
inductive Generated : Twister → List Record → Prop
  | nil (t : Twister) : Generated t []
  | cons {t u : Twister} {d : Draws} {r : Record} {rs : List Record} (drawn : Drawn t d u)
      (accepted : Record.ofFields d.fields = .ok r) (rest : Generated u rs) :
      Generated t (r :: rs)

variable {rs : List Record}

theorem draw_succ {count : Nat} {r : Record} (drawn : draws t = (d, u))
    (accepted : Record.ofFields d.fields = .ok r) (rest : draw count u = .ok rs) :
    draw (count + 1) t = .ok (r :: rs) := by
  simp only [draw, drawn, accepted, rest]
  rfl

/-- Drawing makes as many records as are asked for, and rejects nothing. -/
theorem exists_draw_eq_ok (whole : t.Whole) (count : Nat) :
    ∃ rs, draw count t = .ok rs ∧ Generated t rs ∧ rs.length = count := by
  induction count generalizing t with
  | zero => exact ⟨[], rfl, .nil t, rfl⟩
  | succ count ih =>
      obtain ⟨d, u, taken, drawn, whole'⟩ := exists_draws_eq whole
      obtain ⟨rs, rest, generated, counted⟩ := ih whole'
      have accepted := drawn.inRange.ofFields_fields
      exact ⟨_, draw_succ taken accepted rest, .cons drawn accepted generated,
        congrArg Nat.succ counted⟩

theorem Generated.usable (generated : Generated t rs) : ∀ r ∈ rs, Usable r := by
  induction generated with
  | nil => nofun
  | cons drawn accepted _ ih =>
      rw [drawn.inRange.ofFields_fields] at accepted
      cases accepted
      exact List.forall_mem_cons.2 ⟨drawn.inRange.usable, ih⟩

theorem exists_of_draw_succ {count : Nat} (made : draw (count + 1) t = .ok rs) :
    ∃ (r : Record) (rest : List Record), Record.ofFields (draws t).1.fields = .ok r ∧
      draw count (draws t).2 = .ok rest ∧ rs = r :: rest := by
  cases accepted : Record.ofFields (draws t).1.fields with
  | error rejection =>
      simp only [draw, accepted] at made
      cases made
  | ok r =>
      cases rest : draw count (draws t).2 with
      | error rejection =>
          simp only [draw, accepted, rest] at made
          cases made
      | ok others =>
          rw [draw_succ rfl accepted rest] at made
          cases made
          exact ⟨r, others, rfl, rfl, rfl⟩

/-- Fewer records are the first of more. -/
theorem draw_take {few many : Nat} (fewer : few ≤ many) (made : draw many t = .ok rs) :
    draw few t = .ok (rs.take few) := by
  induction many generalizing few t rs with
  | zero =>
      obtain rfl := Nat.le_zero.1 fewer
      rfl
  | succ many ih =>
      obtain ⟨r, others, accepted, rest, rfl⟩ := exists_of_draw_succ made
      cases few with
      | zero => rfl
      | succ few => exact draw_succ rfl accepted (ih (Nat.le_of_succ_le_succ fewer) rest)

end Vesting.Sample
