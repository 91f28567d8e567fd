/-
# The ledger of a grant

The counters of a grant account for its events. Whatever calls are made, in any order and
whether they are answered or refused: nobody claims twice, also not under another root or
after a root has come back; those who have claimed are the recipients of the claims, and they
are counted; what was handed out is the sum of the deposits, covered by funds that never
exceed their ceiling.

The invariant is about all events since the grant was opened, so that a claim under a new root
is still held against the claims under the old one.
-/

import Mathlib.Algebra.GroupWithZero.Nat
import Vesting.Proofs.Batch
import Vesting.Proofs.Grant.Calls

namespace Vesting

namespace Grant

/-- Who claimed how much, if an event is a claim. -/
def Event.claim? : Event → Option (Recipient × Nat)
  | .claimed record deposit => some (record.recipient, deposit)
  | _ => none

/-- The claims among some events, in order. -/
def claims (events : List Event) : List (Recipient × Nat) := events.filterMap Event.claim?

/-- The recipients of the claims among some events, in order. -/
def recipients (events : List Event) : List Recipient := (claims events).map (·.1)

/-- The deposits of the claims among some events, in order. -/
def deposits (events : List Event) : List Nat := (claims events).map (·.2)

/-- How the counters of a grant account for the events since it was opened. -/
structure Accounts (events : List Event) (g : Grant) : Prop where
  distinct : (recipients events).Nodup
  claimed : g.claimed = (recipients events).reverse
  created : g.created = (recipients events).length
  created_le : g.created ≤ g.maxEscrows
  distributed : g.distributed = (deposits events).sum
  distributed_le : g.distributed ≤ g.funded
  funded_le : g.funded ≤ g.maxClaim
  maxClaim_le : g.maxClaim ≤ Record.wordMax

variable {g next : Grant} {past : List Event} {call : Call} {event : Event}

theorem claims_concat : claims (past ++ [event]) = claims past ++ event.claim?.toList := by
  rw [claims, List.filterMap_append]
  cases shown : event.claim? <;> simp [claims, shown]

theorem recipients_concat :
    recipients (past ++ [event]) = recipients past ++ event.claim?.toList.map (·.1) := by
  rw [recipients, claims_concat, List.map_append, recipients]

theorem deposits_concat :
    deposits (past ++ [event]) = deposits past ++ event.claim?.toList.map (·.2) := by
  rw [deposits, claims_concat, List.map_append, deposits]

/-- Only claims are accounted for. -/
theorem Accounts.concat_of_no_claim (before : Accounts past g) (other : event.claim? = none) :
    Accounts (past ++ [event]) g := by
  have sameRecipients : recipients (past ++ [event]) = recipients past := by
    simp [recipients_concat, other]
  have sameDeposits : deposits (past ++ [event]) = deposits past := by
    simp [deposits_concat, other]
  exact
    { before with
      distinct := sameRecipients ▸ before.distinct
      claimed := sameRecipients ▸ before.claimed
      created := sameRecipients ▸ before.created
      distributed := sameDeposits ▸ before.distributed }

theorem accounts_of_opened (opened : Opened g) : Accounts [] g := by
  obtain ⟨creator, root, maxClaim, maxEscrows, version, rfl, bound, -⟩ := opened.exists_blank
  exact
    { distinct := List.nodup_nil
      claimed := rfl
      created := rfl
      created_le := Nat.zero_le _
      distributed := rfl
      distributed_le := Nat.zero_le _
      funded_le := Nat.zero_le _
      maxClaim_le := bound }

theorem accounts_afterClaim {record : Record} {siblings : List Bytes} (before : Accounts past g)
    (allowed : g.Allows record siblings) :
    Accounts (past ++ [.claimed record record.amount]) (g.afterClaim record) := by
  have newcomer : record.recipient ∉ recipients past := by
    have fresh := allowed.fresh
    rwa [before.claimed, List.mem_reverse] at fresh
  exact
    { distinct := by
        rw [recipients_concat, List.nodup_append]
        refine ⟨before.distinct, by simp [Event.claim?], ?_⟩
        intro earlier member latest added
        obtain rfl : latest = record.recipient := by simpa [Event.claim?] using added
        exact fun same => newcomer (same ▸ member)
      claimed := by simp [afterClaim, before.claimed, recipients_concat, Event.claim?]
      created := by simp [afterClaim, before.created, recipients_concat, Event.claim?]
      created_le := allowed.spare
      distributed := by simp [afterClaim, before.distributed, deposits_concat, Event.claim?]
      distributed_le := allowed.covered
      funded_le := before.funded_le
      maxClaim_le := before.maxClaim_le }

/-- Every step keeps the counters in accord with the events. -/
theorem accounts_step (before : Accounts past g) (step : Step g call event next) :
    Accounts (past ++ [event]) next := by
  cases step with
  | @fund amount moves =>
      have within : g.share amount ≤ g.maxClaim - g.funded := Nat.min_le_left _ _
      have ceiling := before.funded_le
      exact
        { before.concat_of_no_claim rfl with
          distributed_le := Nat.le_add_right_of_le before.distributed_le
          funded_le := by dsimp only [withFunds]; omega }
  | claim allowed => exact accounts_afterClaim before allowed
  | rotate active size differs => exact { before.concat_of_no_claim rfl with }
  | cancel active => exact { before.concat_of_no_claim rfl with }

theorem accounts_run (opened : Opened g) (calls : List Call) :
    Accounts (g.run calls).1 (g.run calls).2 :=
  run_induction (motive := Accounts) accounts_step (accounts_of_opened opened) calls

theorem Reachable.exists_accounts (reached : Reachable g) :
    ∃ past : List Event, Accounts past g := by
  obtain ⟨start, opened, calls, rfl⟩ := reached
  exact ⟨_, accounts_run opened calls⟩

theorem Reachable.funded_le (reached : Reachable g) : g.funded ≤ g.maxClaim := by
  obtain ⟨past, account⟩ := reached.exists_accounts
  exact account.funded_le

/-- After any calls of a grant that was opened, answered or refused: no two claims were for
one recipient, those who have claimed are exactly the recipients of the claims, as many as
are counted and as the grant has room for, and the deposits add up to what was handed out,
within the funds, which are within the ceiling. -/
theorem ledger_balanced (opened : Opened g) (calls : List Call) :
    (recipients (g.run calls).1).Nodup ∧
      (∀ r : Recipient, r ∈ (g.run calls).2.claimed ↔ r ∈ recipients (g.run calls).1) ∧
      (g.run calls).2.claimed.Nodup ∧
      (g.run calls).2.created = (g.run calls).2.claimed.length ∧
      (g.run calls).2.created ≤ (g.run calls).2.maxEscrows ∧
      (g.run calls).2.distributed = (deposits (g.run calls).1).sum ∧
      (g.run calls).2.distributed ≤ (g.run calls).2.funded ∧
      (g.run calls).2.funded ≤ (g.run calls).2.maxClaim ∧
      (g.run calls).2.maxClaim ≤ Record.wordMax := by
  have account := accounts_run opened calls
  refine ⟨account.distinct, ?_, ?_, ?_, account.created_le, account.distributed,
    account.distributed_le, account.funded_le, account.maxClaim_le⟩
  · intro r
    rw [account.claimed, List.mem_reverse]
  · rw [account.claimed]
    exact (List.reverse_perm _).nodup_iff.2 account.distinct
  · rw [account.created, account.claimed, List.length_reverse]

/-- A grant for one account, with room for two. -/
def roomy : Grant := blank [] (Record.ofAccount 1).leaf 20100 2 0

/-- The account claims, and claims again under another root and after its root came back. -/
def returning : List Call := [
  .fund (-5), .fund 30000, .claim (Record.ofAccount 1) [],
  .rotate (List.replicate 32 0) [], .claim (Record.ofAccount 1) [],
  .rotate (Record.ofAccount 1).leaf [], .claim (Record.ofAccount 1) [], .cancel []]

theorem ledger_balanced_returning :
    Opened roomy ∧ (roomy.run returning).2.created = 1 ∧ (roomy.run returning).2.cancelled = true ∧
      (roomy.run returning).2.distributed = (deposits (roomy.run returning).1).sum ∧
      (roomy.run returning).2.distributed ≤ (roomy.run returning).2.funded := by
  have opened : Opened roomy := opened_blank (by decide) (by decide) (Record.length_leaf _)
  obtain ⟨-, -, -, -, -, handedOut, covered, -⟩ := ledger_balanced opened returning
  exact ⟨opened, by decide +kernel, by decide +kernel, handedOut, covered⟩

end Grant

end Vesting
