/-
# Refused calls leave no trace

A call that changes a grant in place stops at the first check that fails, and nothing undoes
what it did before. Main statements: every call does to the entry just what it does to the
grant as a value, so that a refused one leaves each field as it was; and in every grant that
calls can lead to, the claim of a record is answered exactly if it meets a condition in which
the range of words does not occur, since no funds are out of range.

The operations are followed once, check by check; whatever is known of grants as values then
holds of entries, over whole runs as well.
-/

import Vesting.Grant.InPlace
import Vesting.Proofs.Batch.Acceptance
import Vesting.Proofs.Grant.Ledger

namespace Vesting.Grant

/-- What an outcome of a call means for the entry: a refusal leaves it as it was. -/
def settle (g : Grant) : Outcome → Except Refusal Event × Grant
  | .ok (event, next) => (.ok event, next)
  | .error refusal => (.error refusal, g)

variable {g now later : Grant} {past : List Event} {call : Call}

theorem eq_of_settle_eq_error {outcome : Outcome} {refusal : Refusal}
    (refused : g.settle outcome = (.error refusal, later)) : later = g := by
  cases outcome with
  | error _ => exact (Prod.mk.inj refused).2.symm
  | ok _ => nomatch (Prod.mk.inj refused).1

theorem settle_eq_ok_iff {outcome : Outcome} {event : Event} :
    g.settle outcome = (.ok event, later) ↔ outcome = .ok (event, later) := by
  cases outcome with
  | error _ => simp [settle]
  | ok _ => simp [settle, Prod.ext_iff]

namespace InPlace

/-- What comes of something that is done to a grant in place, and the grant that is left. -/
def on {α : Type} (action : InPlace α) (g : Grant) : Except Refusal α × Grant := action.run.run g

/-! ## One thing after another -/

section Steps

variable {α β : Type}

-- Proved by a tactic, so that rewriting with them leaves no unfolding of a whole operation to
-- be checked.
theorem on_pure (a : α) (g : Grant) : (pure a : InPlace α).on g = (.ok a, g) := by rfl

theorem on_get_bind (next : Grant → InPlace α) (g : Grant) :
    (get >>= next).on g = (next g).on g := by rfl

theorem on_modify_bind (change : Grant → Grant) (next : PUnit → InPlace α) (g : Grant) :
    (modify change >>= next).on g = (next ⟨⟩).on (change g) := by rfl

theorem on_refuseIf_bind (bad : Bool) (refusal : Refusal) (next : Unit → InPlace α) (g : Grant) :
    (refuseIf bad refusal >>= next).on g =
      if bad then (.error refusal, g) else (next ()).on g := by
  unfold refuseIf
  split <;> rfl

theorem on_ofExcept_bind (r : Except Refusal β) (next : β → InPlace α) (g : Grant) :
    (ofExcept r >>= next).on g =
      match r with
      | .error refusal => (.error refusal, g)
      | .ok b => (next b).on g := by
  cases r <;> rfl

end Steps

/-! ## The four operations -/

theorem on_fund (g : Grant) (amount : Int) : (fund amount).on g = g.settle (g.fund amount) := by
  simp only [fund, Grant.fund, on_get_bind, on_refuseIf_bind, on_modify_bind, on_pure,
    decide_eq_true_eq]
  split <;> rfl

theorem on_claim (g : Grant) (record : Record) (siblings : List Bytes) :
    (claim record siblings).on g = g.settle (g.claim record siblings) := by
  simp only [claim, Grant.claim, on_get_bind, on_refuseIf_bind]
  split
  · rfl
  cases record.reports none with
  | cons report rest => rfl
  | nil =>
      simp only [on_get_bind, on_refuseIf_bind, verify, Inclusion.ok_check, decide_eq_true_eq]
      split
      · rfl
      split
      · rfl
      split
      · rfl
      cases record.total with
      | error refusal => rfl
      | ok deposit =>
          simp only [on_ofExcept_bind, on_get_bind, on_refuseIf_bind, on_modify_bind, on_pure,
            decide_eq_true_eq]
          split
          · rfl
          split <;> rfl

theorem on_rotate (g : Grant) (newRoot signer : Bytes) :
    (rotate newRoot signer).on g = g.settle (g.rotate newRoot signer) := by
  simp only [rotate, Grant.rotate, on_get_bind, on_refuseIf_bind, on_modify_bind, on_pure,
    decide_eq_true_eq]
  split
  · rfl
  split
  · rfl
  split
  · rfl
  split <;> rfl

theorem on_cancel (g : Grant) (signer : Bytes) :
    (cancel signer).on g = g.settle (g.cancel signer) := by
  simp only [cancel, Grant.cancel, on_get_bind, on_refuseIf_bind, on_modify_bind, on_pure,
    decide_eq_true_eq]
  split
  · rfl
  split <;> rfl

/-- A call does in place what it does to a grant as a value. -/
theorem on_answer (g : Grant) (call : Call) : (answer call).on g = g.settle (g.apply call) := by
  cases call with
  | fund amount => exact on_fund g amount
  | claim record siblings => exact on_claim g record siblings
  | rotate newRoot signer => exact on_rotate g newRoot signer
  | cancel signer => exact on_cancel g signer

theorem on_answer_eq_ok_iff {event : Event} :
    (answer call).on g = (.ok event, later) ↔ Step g call event later := by
  rw [on_answer, settle_eq_ok_iff, apply_eq_ok_iff]

/-- Calls that are answered in place lead where they lead a grant as a value. -/
theorem run_answerAll (g : Grant) (calls : List Call) : (answerAll calls).run g = g.run calls := by
  induction calls generalizing g with
  | nil => rfl
  | cons call rest ih =>
      have first : (answer call).run.run g = g.settle (g.apply call) := on_answer g call
      rw [answerAll, StateT.run_bind, first]
      cases outcome : g.apply call with
      | error refusal =>
          rw [run_cons_of_error outcome, ← ih g]
          rfl
      | ok result =>
          rw [run_cons_of_ok outcome, ← ih result.2]
          rfl

end InPlace

/-! ## When a claim is answered -/

/-- While the funds are a word, what they cover is in range. -/
theorem allows_iff {record : Record} {siblings : List Bytes} (account : Accounts past g) :
    g.Allows record siblings ↔
      g.cancelled = false ∧ (record.start < record.cliff ∧ 0 < record.frequency) ∧
        Merkle.foldPath record.leaf siblings = g.root ∧ record.recipient ∉ recipients past ∧
        g.created < g.maxEscrows ∧ g.distributed + record.amount ≤ min g.maxClaim g.funded := by
  constructor
  · intro allowed
    have sensible := Record.violations_eq_nil_iff.1 allowed.sensible
    have fresh := allowed.fresh
    rw [account.claimed, List.mem_reverse] at fresh
    exact ⟨allowed.active, ⟨sensible.start_lt_cliff, sensible.frequency_pos⟩,
      beq_iff_eq.1 allowed.proved, fresh, allowed.spare,
      Nat.le_min.2 ⟨allowed.belowCeiling, allowed.covered⟩⟩
  · rintro ⟨active, ⟨ordered, frequent⟩, proved, fresh, spare, covered⟩
    obtain ⟨belowCeiling, covered⟩ := Nat.le_min.1 covered
    have word := account.maxClaim_le
    exact
      { active := active
        sensible := Record.violations_eq_nil_iff.2 ⟨ordered, frequent⟩
        proved := beq_iff_eq.2 proved
        fresh := by rwa [account.claimed, List.mem_reverse]
        spare := spare
        inRange := by omega
        belowCeiling := belowCeiling
        covered := covered }

open InPlace in
/-- After any calls of a grant that was opened, answered in place: a call that is refused
leaves the entry as it was, whichever check it fails; and the claim of a record is answered,
with the exact amount of the record, exactly if the grant is not cancelled, the record makes
sense, its path leads to the root of the time, nobody has claimed for its recipient since the
grant was opened, there is an escrow left, and ceiling and funds cover the amount beside what
was handed out. No record with an amount out of range is among these. -/
theorem refusals_leave_no_trace (opened : Opened g) {calls : List Call}
    (led : (answerAll calls).run g = (past, now)) :
    (∀ (call : Call) (refusal : Refusal) (later : Grant),
      (answer call).on now = (.error refusal, later) → later = now) ∧
    ∀ (record : Record) (siblings : List Bytes),
      ((∃ later : Grant, (answer (.claim record siblings)).on now =
          (.ok (.claimed record record.amount), later)) ↔
        now.cancelled = false ∧ (record.start < record.cliff ∧ 0 < record.frequency) ∧
          Merkle.foldPath record.leaf siblings = now.root ∧ record.recipient ∉ recipients past ∧
          now.created < now.maxEscrows ∧
          now.distributed + record.amount ≤ min now.maxClaim now.funded) ∧
      ∀ (event : Event) (later : Grant),
        (answer (.claim record siblings)).on now = (.ok event, later) →
          event = .claimed record record.amount ∧ record.amount ≤ 2 ^ 64 - 1 := by
  have account : Accounts past now := by
    rw [run_answerAll] at led
    have run := accounts_run opened calls
    rwa [led] at run
  refine ⟨?_, ?_⟩
  · intro call refusal later refused
    rw [on_answer] at refused
    exact eq_of_settle_eq_error refused
  intro record siblings
  refine ⟨?_, ?_⟩
  · rw [← allows_iff account]
    constructor
    · rintro ⟨later, answered⟩
      cases on_answer_eq_ok_iff.1 answered with
      | claim allowed => exact allowed
    · intro allowed
      exact ⟨_, on_answer_eq_ok_iff.2 (.claim allowed)⟩
  · intro event later answered
    cases on_answer_eq_ok_iff.1 answered with
    | claim allowed => exact ⟨rfl, allowed.inRange⟩

open InPlace in
/-- Somebody else tries to cancel a funded grant, and its recipient claims. -/
theorem refusals_leave_no_trace_roomy :
    Opened roomy ∧
      (answerAll [.fund 30000]).run roomy =
        ([.funded 20100 20100], roomy.withFunds 20100) ∧
      (∀ (refusal : Refusal) (later : Grant),
        (answer (.cancel [7])).on (roomy.withFunds 20100) = (.error refusal, later) →
          later = roomy.withFunds 20100) ∧
      ∃ later : Grant, (answer (.claim (.ofAccount 1) [])).on (roomy.withFunds 20100) =
        (.ok (.claimed (.ofAccount 1) 20100), later) := by
  have opened : Opened roomy := opened_blank (by decide) (by decide) (Record.length_leaf _)
  have led : (answerAll [.fund 30000]).run roomy =
      ([.funded 20100 20100], roomy.withFunds 20100) := rfl
  obtain ⟨atomic, exact⟩ := refusals_leave_no_trace opened led
  have proved : Merkle.foldPath (Record.ofAccount 1).leaf [] = (roomy.withFunds 20100).root := rfl
  have covered : (roomy.withFunds 20100).distributed + (Record.ofAccount 1).amount ≤
      min (roomy.withFunds 20100).maxClaim (roomy.withFunds 20100).funded := by decide
  have answered := (exact (.ofAccount 1) []).1.2
    ⟨rfl, ⟨by decide, by decide⟩, proved, by decide, by decide, covered⟩
  exact ⟨opened, led, atomic (.cancel [7]), answered⟩

end Vesting.Grant
