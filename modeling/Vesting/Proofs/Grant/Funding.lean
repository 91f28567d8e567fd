/-
# Funds add up

A grant takes what it is offered until it has all that it may hand out. Main statement: after
any calls, the funds are the sum of the positive amounts that were offered, cut off at the
ceiling. So neither the order of the calls nor the portions in which funds come make a
difference, and what the events of the calls say was added is what there is.

A single call cuts off at the ceiling what there was together with what it offers, whether it
is answered or refused. Nothing is lost by doing this again and again, because what is at the
ceiling stays there; this is all that the induction over the calls needs.
-/

import Vesting.Proofs.Grant.History
import Vesting.Proofs.Grant.InPlace

namespace Vesting.Grant

/-- What a call offers to the funds: a positive amount as it is, anything else as nothing. -/
def Call.offer : Call → Nat
  | .fund amount => amount.toNat
  | _ => 0

/-- The sum of the positive amounts that some calls offer. -/
def offered (calls : List Call) : Nat := (calls.map Call.offer).sum

/-- What was added to the funds, if an event is a funding. -/
def Event.added : Event → Nat
  | .funded amount _ => amount
  | _ => 0

/-- The sum of what some events added to the funds. -/
def added (events : List Event) : Nat := (events.map Event.added).sum

variable {g now next : Grant} {past : List Event} {call : Call} {event : Event}
  {calls others : List Call}

theorem offered_cons (call : Call) (rest : List Call) :
    offered (call :: rest) = call.offer + offered rest := by
  rw [offered, List.map_cons, List.sum_cons, offered]

theorem offered_eq_of_perm (order : others.Perm calls) : offered others = offered calls :=
  (order.map Call.offer).sum_nat

theorem added_concat : added (past ++ [event]) = added past + event.added := by
  simp [added]

/-! ## One call -/

theorem share_eq_zero_iff {amount : Int} :
    g.share amount = 0 ↔ amount ≤ 0 ∨ g.maxClaim ≤ g.funded := by
  unfold share
  omega

/-- Funding is refused, for one reason only, or a share of what was offered is added. -/
theorem fund_cases (g : Grant) (amount : Int) :
    g.share amount = 0 ∧ g.fund amount = .error (.amountIsZero Refusal.zeroMessage) ∨
      0 < g.share amount ∧ g.fund amount =
        .ok (.funded (g.share amount) (g.funded + g.share amount),
          g.withFunds (g.funded + g.share amount)) := by
  rcases Nat.eq_zero_or_pos (g.share amount) with nothing | moves
  · have none : min ((g.maxClaim : Int) - g.funded) amount ≤ 0 := by
      unfold share at nothing
      omega
    exact .inl ⟨nothing, if_pos none⟩
  · exact .inr ⟨moves, fund_eq_ok_iff.2 (.fund moves)⟩

/-- A step leaves the ceiling, and it adds to the funds what its event says. -/
theorem funds_of_step (step : Step g call event next) :
    next.maxClaim = g.maxClaim ∧ next.funded = g.funded + event.added := by
  cases step <;> exact ⟨rfl, rfl⟩

/-- A step adds what was offered, up to the ceiling. -/
theorem funded_of_step (within : g.funded ≤ g.maxClaim) (step : Step g call event next) :
    next.funded = min g.maxClaim (g.funded + call.offer) := by
  cases step with
  | @fund amount moves =>
      show g.funded + g.share amount = min g.maxClaim (g.funded + amount.toNat)
      unfold share
      omega
  | claim allowed => exact (Nat.min_eq_right within).symm
  | rotate active size differs => exact (Nat.min_eq_right within).symm
  | cancel active => exact (Nat.min_eq_right within).symm

/-- A call is refused although it offers something only if the ceiling has been reached. -/
theorem funded_of_error (within : g.funded ≤ g.maxClaim) {refusal : Refusal}
    (refused : g.apply call = .error refusal) :
    g.funded = min g.maxClaim (g.funded + call.offer) := by
  cases call with
  | fund amount =>
      rcases g.fund_cases amount with ⟨nothing, -⟩ | ⟨-, answered⟩
      · show g.funded = min g.maxClaim (g.funded + amount.toNat)
        unfold share at nothing
        omega
      · exact nomatch refused.symm.trans answered
  | claim record siblings => exact (Nat.min_eq_right within).symm
  | rotate newRoot signer => exact (Nat.min_eq_right within).symm
  | cancel signer => exact (Nat.min_eq_right within).symm

/-! ## All calls -/

/-- The funds after some calls are cut off once, at the end. -/
theorem funded_run (within : g.funded ≤ g.maxClaim) (calls : List Call) :
    (g.run calls).2.funded = min g.maxClaim (g.funded + offered calls) := by
  induction calls generalizing g with
  | nil => exact (Nat.min_eq_right within).symm
  | cons call rest ih =>
      rw [offered_cons]
      cases outcome : g.apply call with
      | error refusal =>
          have here := funded_of_error within outcome
          rw [run_cons_of_error outcome, ih within]
          omega
      | ok result =>
          obtain ⟨event, next⟩ := result
          have step := apply_eq_ok_iff.1 outcome
          have here := funded_of_step within step
          have ceiling := (funds_of_step step).1
          rw [run_cons_of_ok outcome, ih (by omega), ceiling, here]
          omega

/-- The events account for the funds, and the ceiling stays. -/
theorem added_run (g : Grant) (calls : List Call) :
    (g.run calls).2.maxClaim = g.maxClaim ∧
      (g.run calls).2.funded = g.funded + added (g.run calls).1 := by
  have keeps : ∀ {past : List Event} {later next : Grant} {call : Call} {event : Event},
      later.maxClaim = g.maxClaim ∧ later.funded = g.funded + added past →
        Step later call event next →
          next.maxClaim = g.maxClaim ∧ next.funded = g.funded + added (past ++ [event]) := by
    rintro past later next call event ⟨ceiling, funds⟩ step
    obtain ⟨still, more⟩ := funds_of_step step
    rw [added_concat, ← Nat.add_assoc, ← funds]
    exact ⟨still.trans ceiling, more⟩
  have start : g.maxClaim = g.maxClaim ∧ g.funded = g.funded + added [] := ⟨rfl, rfl⟩
  exact run_induction (motive := fun past later =>
    later.maxClaim = g.maxClaim ∧ later.funded = g.funded + added past) keeps start calls

open InPlace in
/-- After any calls of a grant that was opened, answered in place, whether they fund it, claim
from it or rotate it, and also if it has been cancelled in between: the funds are the sum of
the positive amounts that were offered, up to the ceiling that the grant was opened with, and
they are what the events add up to. Funding is refused, with nothing to add as the reason,
exactly if the amount is not positive or the funds are complete; otherwise as much of it is
added as is missing. Whoever makes the same calls in another order, or offers the same total in
other portions and between other calls, has the same funds in the end. -/
theorem funds_add_up (opened : Opened g) (led : (answerAll calls).run g = (past, now)) :
    now.funded = min now.maxClaim (offered calls) ∧ now.funded = added past ∧
      now.maxClaim = g.maxClaim ∧
      (∀ amount : Int,
        ((∃ (message : String) (later : Grant),
            (answer (.fund amount)).on now = (.error (.amountIsZero message), later)) ↔
          amount ≤ 0 ∨ now.funded = now.maxClaim) ∧
        (0 < amount → now.funded < now.maxClaim →
          ∃ share : Nat, share = min (now.maxClaim - now.funded) amount.toNat ∧ 0 < share ∧
            (answer (.fund amount)).on now =
              (.ok (.funded share (now.funded + share)), now.withFunds (now.funded + share)))) ∧
      ∀ others : List Call, others.Perm calls ∨ offered others = offered calls →
        ((answerAll others).run g).2.funded = now.funded := by
  have start : g.funded = 0 := by
    obtain ⟨creator, root, maxClaim, maxEscrows, version, rfl, -⟩ := opened.exists_blank
    rfl
  have within : g.funded ≤ g.maxClaim := start ▸ Nat.zero_le _
  have total := funded_run within
  obtain ⟨ceiling, account⟩ := added_run g calls
  rw [start, Nat.zero_add] at account
  simp only [start, Nat.zero_add] at total
  rw [run_answerAll] at led
  simp only [led] at ceiling account
  have funds : now.funded = min g.maxClaim (offered calls) := by rw [← total, led]
  refine ⟨ceiling ▸ funds, account, ceiling, ?_, ?_⟩
  · intro amount
    have nothing : now.share amount = 0 ↔ amount ≤ 0 ∨ now.funded = now.maxClaim := by
      rw [share_eq_zero_iff]
      omega
    refine ⟨?_, ?_⟩
    · rw [← nothing, on_answer, apply]
      rcases now.fund_cases amount with ⟨none, outcome⟩ | ⟨moves, outcome⟩
      · rw [outcome]
        exact ⟨fun _ => none, fun _ => ⟨_, _, rfl⟩⟩
      · rw [outcome]
        simp [settle, Nat.ne_of_gt moves]
    · intro positive missing
      have moves := share_pos_iff.2 ⟨missing, positive⟩
      exact ⟨_, rfl, moves, on_answer_eq_ok_iff.2 (.fund moves)⟩
  · intro others same
    have offers : offered others = offered calls := same.elim offered_eq_of_perm id
    rw [run_answerAll, total, funds, offers]

/-- Five portions, of which a negative one and the last one are refused, and a rotation. -/
def portions : List Call := [.fund 4, .fund (-3), .rotate ones [5], .fund 4, .fund 2, .fund 9]

open InPlace in
/-- They fund a grant fully, as a single call does that offers as much. -/
theorem funds_add_up_portions :
    Opened (blank [5] zeros 10 1 0) ∧
      (answerAll portions).run (blank [5] zeros 10 1 0) =
        ([.funded 4 4, .rotated [5] zeros ones, .funded 4 8, .funded 2 10],
          (blank [5] ones 10 1 0).withFunds 10) ∧
      offered [.fund 19] = offered portions ∧
      ((answerAll [.fund 19]).run (blank [5] zeros 10 1 0)).2.funded = 10 ∧
      ∃ (message : String) (later : Grant),
        (answer (.fund 1)).on ((blank [5] ones 10 1 0).withFunds 10) =
          (.error (.amountIsZero message), later) := by
  have opened : Opened (blank [5] zeros 10 1 0) := opened_blank (by decide) (by decide) rfl
  have led : (answerAll portions).run (blank [5] zeros 10 1 0) =
      ([.funded 4 4, .rotated [5] zeros ones, .funded 4 8, .funded 2 10],
        (blank [5] ones 10 1 0).withFunds 10) := rfl
  have same : offered [.fund 19] = offered portions := by decide
  obtain ⟨-, -, -, answers, anyhow⟩ := funds_add_up opened led
  exact ⟨opened, led, same, anyhow _ (.inr same), (answers 1).1.2 (.inr rfl)⟩

end Vesting.Grant
