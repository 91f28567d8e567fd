/-
# Cancelled grants

Cancelling a grant is meant to freeze it. Claims, rotations and further cancellations are
refused from then on, but funding does not ask whether the grant is cancelled: a cancelled
grant takes funds until it has all that it may hand out, although nobody can claim them any
more. Nothing but the funds ever changes again, and once they are complete nothing changes at
all.
-/

import Vesting.Proofs.Grant.Ledger

namespace Vesting

namespace Grant

variable {g next : Grant} {call : Call} {event : Event}

/-- A cancelled grant answers nothing but funding. -/
theorem fund_of_step_of_cancelled (cancelled : g.cancelled = true)
    (step : Step g call event next) :
    ∃ amount : Int, call = .fund amount ∧ 0 < g.share amount ∧
      event = .funded (g.share amount) (g.funded + g.share amount) ∧
      next = g.withFunds (g.funded + g.share amount) := by
  cases step with
  | fund moves => exact ⟨_, rfl, moves, rfl, rfl⟩
  | claim allowed => exact absurd cancelled (by simp [allowed.active])
  | rotate active => exact absurd cancelled (by simp [active])
  | cancel active => exact absurd cancelled (by simp [active])

theorem apply_of_cancelled (cancelled : g.cancelled = true) (call : Call) :
    (∃ refusal : Refusal, g.apply call = .error refusal) ∨
      ∃ amount : Int, call = .fund amount ∧ 0 < g.share amount ∧
        g.apply call = .ok (.funded (g.share amount) (g.funded + g.share amount),
          g.withFunds (g.funded + g.share amount)) := by
  cases outcome : g.apply call with
  | error refusal => exact Or.inl ⟨refusal, rfl⟩
  | ok result =>
      obtain ⟨amount, rfl, moves, event, next⟩ :=
        fund_of_step_of_cancelled cancelled (apply_eq_ok_iff.1 outcome)
      exact Or.inr ⟨amount, rfl, moves, by rw [← event, ← next]⟩

/-- A grant that refuses every call stays as it is. -/
theorem run_of_refused (refused : ∀ call : Call, ∃ refusal : Refusal, g.apply call = .error refusal)
    (calls : List Call) : g.run calls = ([], g) := by
  induction calls with
  | nil => rfl
  | cons call rest ih =>
      obtain ⟨refusal, outcome⟩ := refused call
      rw [run_cons_of_error outcome, ih]

/-- The events were fundings, and nothing but the funds has changed, which did not shrink and
are within the ceiling. -/
structure OnlyFunded (g : Grant) (past : List Event) (later : Grant) : Prop where
  fundings : ∀ event ∈ past, ∃ added total : Nat, event = .funded added total
  funds : ∃ funds : Nat, later = g.withFunds funds ∧ g.funded ≤ funds ∧ funds ≤ g.maxClaim

theorem onlyFunded_step (cancelled : g.cancelled = true) {past : List Event} {later : Grant}
    (before : OnlyFunded g past later) (step : Step later call event next) :
    OnlyFunded g (past ++ [event]) next := by
  obtain ⟨funds, rfl, more, bounded⟩ := before.funds
  have still : (g.withFunds funds).cancelled = true := cancelled
  obtain ⟨amount, rfl, -, rfl, rfl⟩ := fund_of_step_of_cancelled still step
  have added : (g.withFunds funds).share amount ≤ g.maxClaim - funds := Nat.min_le_left _ _
  have enough : funds + (g.withFunds funds).share amount ≤ g.maxClaim := by omega
  refine ⟨?_, _, rfl, Nat.le_add_right_of_le more, enough⟩
  intro event member
  rcases List.mem_append.1 member with earlier | latest
  · exact before.fundings event earlier
  · exact ⟨_, _, List.mem_singleton.1 latest⟩

/-- All that calls of a cancelled grant can do is to add to its funds. -/
theorem onlyFunded_run (cancelled : g.cancelled = true) (within : g.funded ≤ g.maxClaim)
    (calls : List Call) : OnlyFunded g (g.run calls).1 (g.run calls).2 := by
  have start : OnlyFunded g [] g := ⟨by simp, g.funded, rfl, Nat.le_refl _, within⟩
  exact run_induction (motive := OnlyFunded g) (onlyFunded_step cancelled) start calls

/-- In a reachable grant that is cancelled, every call is refused and changes nothing, except
for funding while funds are missing. Whatever is called, nothing but the funds changes, which
do not shrink and stay within the ceiling; and if they have reached it, nothing changes. -/
theorem cancelled_frozen_but_for_funds (reached : Reachable g) (cancelled : g.cancelled = true) :
    (∀ call : Call,
      (∃ refusal : Refusal, g.apply call = .error refusal) ∧ g.run [call] = ([], g) ∨
        ∃ amount : Int, call = .fund amount ∧ 0 < amount ∧ g.funded < g.maxClaim ∧
          g.apply call = .ok (.funded (g.share amount) (g.funded + g.share amount),
            g.withFunds (g.funded + g.share amount))) ∧
      (∀ calls : List Call, OnlyFunded g (g.run calls).1 (g.run calls).2) ∧
      (g.funded = g.maxClaim → ∀ calls : List Call, g.run calls = ([], g)) := by
  refine ⟨?_, onlyFunded_run cancelled reached.funded_le, ?_⟩
  · intro call
    rcases apply_of_cancelled cancelled call with ⟨refusal, outcome⟩ | ⟨amount, rfl, moves, funded⟩
    · left
      exact ⟨⟨refusal, outcome⟩, run_cons_of_error outcome []⟩
    · right
      obtain ⟨missing, positive⟩ := share_pos_iff.1 moves
      exact ⟨amount, rfl, positive, missing, funded⟩
  · intro complete
    apply run_of_refused
    intro call
    rcases apply_of_cancelled cancelled call with refused | ⟨amount, -, moves, -⟩
    · exact refused
    · have missing := (share_pos_iff.1 moves).1
      omega

/-- A grant without funds. -/
def unfunded : Grant := blank [] (List.replicate 32 0) 10 1 0

/-- The same grant, cancelled as soon as it was opened. -/
def cancelledUnfunded : Grant := { unfunded with cancelled := true }

theorem reachable_cancelledUnfunded : Reachable cancelledUnfunded := by
  have opened : Opened unfunded := opened_blank (by decide) (by decide) rfl
  exact ⟨unfunded, opened, [.cancel []], rfl⟩

theorem cancelledUnfunded_but_for_funds :
    Reachable cancelledUnfunded ∧ cancelledUnfunded.cancelled = true ∧
      ∃ funds : Nat, (cancelledUnfunded.run [.fund 7, .cancel [], .fund 7]).2 =
        cancelledUnfunded.withFunds funds ∧ funds ≤ 10 := by
  have reached := reachable_cancelledUnfunded
  obtain ⟨-, runs, -⟩ := cancelled_frozen_but_for_funds reached rfl
  obtain ⟨funds, last, -, bounded⟩ := (runs [.fund 7, .cancel [], .fund 7]).funds
  exact ⟨reached, rfl, funds, last, bounded⟩

/-- A cancelled grant answers a call, and a field of it changes. -/
theorem cancelledUnfunded_not_frozen :
    Reachable cancelledUnfunded ∧ cancelledUnfunded.cancelled = true ∧
      cancelledUnfunded.apply (.fund 1) = .ok (.funded 1 1, cancelledUnfunded.withFunds 1) ∧
      (cancelledUnfunded.run [.fund 1]).2 ≠ cancelledUnfunded :=
  ⟨reachable_cancelledUnfunded, rfl, rfl, by decide⟩

end Grant

end Vesting
