/-
# The sum of a batch

The totals of a batch are added up one record after another, and the first step out of the
range of words ends the sum. Main statements: there is a sum exactly if the exact sum of the
exact totals fits a word, and then it is that sum; otherwise the sum is refused at the first
record with which the exact sum of the records up to it is no word.

The order of the records therefore decides which of them is named, but not whether there is
a sum. The inductions run behind a sum that is in range already.
-/

import Mathlib.Algebra.GroupWithZero.Nat
import Vesting.Batch

namespace Vesting

theorem Record.total_eq_error_of_lt {r : Record} (beyond : wordMax < r.amount) :
    ∃ refusal : Refusal, r.total = .error refusal := by
  cases total : r.total with
  | error refusal => exact ⟨refusal, rfl⟩
  | ok n => exact absurd ((r.total_eq_ok_iff n).1 total).2 (Nat.not_le_of_lt beyond)

/-- A total is refused for nothing but amounts out of range. -/
theorem Record.exists_mathOverflow_of_total_eq_error (r : Record) {refusal : Refusal}
    (refused : r.total = .error refusal) :
    ∃ (message : String) (details : Fields), refusal = .mathOverflow message details := by
  simp only [Record.total] at refused
  split at refused
  · obtain rfl := Except.error.inj refused
    exact ⟨_, _, rfl⟩
  · split at refused
    · obtain rfl := Except.error.inj refused
      exact ⟨_, _, rfl⟩
    · cases refused

namespace Batch

/-- The exact amount that a batch entitles to, whatever its size. -/
def amount (records : List Record) : Nat := (records.map Record.amount).sum

@[simp] theorem amount_nil : amount [] = 0 := rfl

@[simp] theorem amount_cons (r : Record) (rest : List Record) :
    amount (r :: rest) = r.amount + amount rest := by
  simp [amount]

theorem amount_le_of_mem {records : List Record} {r : Record} (member : r ∈ records) :
    r.amount ≤ amount records := by
  induction member with
  | head rest => simp
  | tail first _ ih => exact Nat.le_trans ih (by simp)

theorem amount_take_le (records : List Record) (n : Nat) :
    amount (records.take n) ≤ amount records := by
  induction records generalizing n with
  | nil => simp
  | cons r rest ih =>
      cases n with
      | zero => simp
      | succ n =>
          rw [List.take_succ_cons, amount_cons, amount_cons]
          exact Nat.add_le_add_left (ih n) _

/-- A sum behind one that is in range is exact, and it is given exactly if it fits a word. -/
theorem sumFrom_eq_ok_iff {sum n : Nat} {records : List Record} (small : sum ≤ Record.wordMax) :
    sumFrom sum records = .ok n ↔
      n = sum + amount records ∧ sum + amount records ≤ Record.wordMax := by
  induction records generalizing sum with
  | nil =>
      simp only [sumFrom, Except.ok.injEq, amount_nil, Nat.add_zero]
      exact ⟨fun same => ⟨same.symm, small⟩, fun both => both.1.symm⟩
  | cons r rest ih =>
      rw [sumFrom, amount_cons]
      by_cases inRange : r.amount ≤ Record.wordMax
      · rw [(r.total_eq_ok_iff _).2 ⟨rfl, inRange⟩]
        dsimp only
        split
        · next beyond =>
            simp only [reduceCtorEq, false_iff, not_and]
            omega
        · next within =>
            rw [ih (Nat.le_of_not_lt within), Nat.add_assoc]
      · obtain ⟨refusal, refused⟩ := Record.total_eq_error_of_lt (Nat.lt_of_not_le inRange)
        rw [refused]
        simp only [reduceCtorEq, false_iff, not_and]
        omega

/-- A sum is refused for nothing but amounts out of range. -/
theorem exists_mathOverflow_of_sumFrom_eq_error {sum : Nat} {records : List Record}
    {refusal : Refusal} (refused : sumFrom sum records = .error refusal) :
    ∃ (message : String) (details : Fields), refusal = .mathOverflow message details := by
  induction records generalizing sum with
  | nil => cases refused
  | cons r rest ih =>
      rw [sumFrom] at refused
      split at refused
      · next first =>
          obtain rfl := Except.error.inj refused
          exact r.exists_mathOverflow_of_total_eq_error first
      · split at refused
        · obtain rfl := Except.error.inj refused
          exact ⟨_, _, rfl⟩
        · exact ih refused

/-- The sum of a batch is exact, and it is given exactly if it fits a word. -/
theorem total_eq_ok_iff {records : List Record} {n : Nat} :
    total records = .ok n ↔ n = amount records ∧ amount records ≤ Record.wordMax := by
  rw [total, sumFrom_eq_ok_iff (Nat.zero_le _), Nat.zero_add]

/-- A batch whose sum is no word: the record with which the sum of the records up to it
leaves the range is refused. -/
def Overflow (records : List Record) (refusal : Refusal) : Prop :=
  ∃ (i : Nat) (r : Record), records[i]? = some r ∧
    amount (records.take i) ≤ Record.wordMax ∧ Record.wordMax < amount (records.take (i + 1)) ∧
    refusal = sumOverflow r

/-- The refusal of the record with which a sum leaves the range of words: that of its total,
or, if the total is a word, that of the sum. -/
def beyondWords (r : Record) : Refusal :=
  match r.total with
  | .error refusal => refusal
  | .ok _ => sumOverflow r

/-- A sum that leaves the range of words ends at the first record with which it does. -/
theorem exists_sumFrom_eq_error {sum : Nat} {records : List Record}
    (small : sum ≤ Record.wordMax) (beyond : Record.wordMax < sum + amount records) :
    ∃ (i : Nat) (r : Record), records[i]? = some r ∧
      sum + amount (records.take i) ≤ Record.wordMax ∧
      Record.wordMax < sum + amount (records.take (i + 1)) ∧
      sumFrom sum records = .error (beyondWords r) := by
  induction records generalizing sum with
  | nil => exact absurd small (Nat.not_le_of_lt beyond)
  | cons r rest ih =>
      rw [amount_cons] at beyond
      by_cases here : Record.wordMax < sum + r.amount
      · refine ⟨0, r, rfl, by simpa using small, by simpa using here, ?_⟩
        rw [sumFrom, beyondWords]
        cases total : r.total with
        | error refusal => rfl
        | ok n =>
            obtain ⟨rfl, -⟩ := (r.total_eq_ok_iff n).1 total
            exact if_pos here
      · have first : r.total = .ok r.amount := (r.total_eq_ok_iff _).2 ⟨rfl, by omega⟩
        obtain ⟨i, q, place, before, after, refused⟩ := ih (Nat.le_of_not_lt here) (by omega)
        refine ⟨i + 1, q, place, ?_, ?_, ?_⟩
        · rw [List.take_succ_cons, amount_cons]
          omega
        · rw [List.take_succ_cons, amount_cons]
          omega
        · rw [sumFrom, first]
          simpa only [if_neg here] using refused

theorem exists_total_eq_beyondWords {records : List Record}
    (beyond : Record.wordMax < amount records) :
    ∃ (i : Nat) (r : Record), records[i]? = some r ∧
      amount (records.take i) ≤ Record.wordMax ∧
      Record.wordMax < amount (records.take (i + 1)) ∧
      total records = .error (beyondWords r) := by
  rw [← Nat.zero_add (amount records)] at beyond
  simpa only [total, Nat.zero_add] using exists_sumFrom_eq_error (Nat.zero_le _) beyond

/-- If all totals are words but their sum is none, the sum is refused where it overflows. -/
theorem exists_total_eq_error {records : List Record}
    (totals : ∀ r ∈ records, r.amount ≤ Record.wordMax)
    (beyond : Record.wordMax < amount records) :
    ∃ refusal : Refusal, total records = .error refusal ∧ Overflow records refusal := by
  obtain ⟨i, r, place, before, after, refused⟩ := exists_total_eq_beyondWords beyond
  have word := (r.total_eq_ok_iff _).2 ⟨rfl, totals r (List.mem_of_getElem? place)⟩
  rw [beyondWords, word] at refused
  exact ⟨_, refused, i, r, place, before, after, rfl⟩

/-! ## The order of a batch -/

theorem amount_append (first second : List Record) :
    amount (first ++ second) = amount first + amount second := by
  rw [amount, List.map_append, List.sum_append_nat, amount, amount]

/-- The order of a batch does not matter to its amount. -/
theorem amount_eq_of_perm {first second : List Record} (order : first.Perm second) :
    amount first = amount second := (order.map Record.amount).sum_nat

/-- The sum of a batch is the exact sum of what its records entitle to, and it is given exactly
if it is below two to the sixty-four. Nothing but an overflow is ever reported, which is at the
first record with which the exact sum of the records up to it is too large. In every other
order the batch has the same sum, or none either. -/
theorem total_exact_in_any_order (records : List Record) :
    (∀ n : Nat, total records = .ok n ↔ n = amount records ∧ n ≤ 2 ^ 64 - 1) ∧
      (∀ refusal : Refusal, total records = .error refusal →
        ∃ (message : String) (details : Fields), refusal = .mathOverflow message details) ∧
      (2 ^ 64 - 1 < amount records → ∃ (i : Nat) (r : Record), records[i]? = some r ∧
        amount (records.take i) ≤ 2 ^ 64 - 1 ∧ 2 ^ 64 - 1 < amount (records.take (i + 1)) ∧
        total records = .error (beyondWords r)) ∧
      ∀ others : List Record, records.Perm others →
        (total others).toOption = (total records).toOption := by
  refine ⟨?_, fun refusal => exists_mathOverflow_of_sumFrom_eq_error,
    exists_total_eq_beyondWords, ?_⟩
  · intro n
    rw [total_eq_ok_iff]
    constructor
    · rintro ⟨rfl, fits⟩
      exact ⟨rfl, fits⟩
    · rintro ⟨rfl, fits⟩
      exact ⟨rfl, fits⟩
  · intro others order
    have same := amount_eq_of_perm order
    have sums : ∀ n : Nat, total others = .ok n ↔ total records = .ok n := by
      intro n
      rw [total_eq_ok_iff, total_eq_ok_iff, same]
    cases given : total records with
    | ok n => rw [(sums n).2 given]
    | error refusal =>
        cases other : total others with
        | ok n => exact nomatch given.symm.trans ((sums n).1 other)
        | error _ => rfl

/-- A record that entitles to an amount at the cliff and to nothing later. -/
def atCliff (amount : UInt64) : Record where
  recipient := ⟨List.replicate 32 1, List.length_replicate⟩
  start := 0
  cliff := 1
  frequency := 1
  cliffAmount := amount
  periodAmount := 0
  periods := 0
  updateMode := 0
  cancelMode := 0

/-- All that fits a word, and one more. -/
def brimming : List Record := [atCliff 0xffffffffffffffff, atCliff 1]

theorem total_exact_in_any_order_brimming :
    2 ^ 64 - 1 < amount brimming ∧ brimming.Perm brimming.reverse ∧
      (∃ (i : Nat) (r : Record), brimming[i]? = some r ∧
        total brimming = .error (beyondWords r)) ∧
      (total brimming.reverse).toOption = (total brimming).toOption := by
  obtain ⟨-, -, refused, orders⟩ := total_exact_in_any_order brimming
  have beyond : 2 ^ 64 - 1 < amount brimming := by decide
  have order : brimming.Perm brimming.reverse := (List.reverse_perm brimming).symm
  obtain ⟨i, r, place, -, -, outcome⟩ := refused beyond
  exact ⟨beyond, order, ⟨i, r, place, outcome⟩, orders _ order⟩

end Batch

end Vesting
