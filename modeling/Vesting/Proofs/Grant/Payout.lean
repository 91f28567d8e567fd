/-
# Everyone can claim

A distribution promises each of its recipients a share, and a grant that is opened with it
keeps the promise as soon as it is fully funded. Main statement: whatever is built opens a
grant; once funding calls have brought its funds to the ceiling, the recipients can claim with
the proofs they were given in any order, every claim is answered, and in the end both ceilings
are met exactly.

The ceilings leave no slack, so it matters that they are exact: before any claim the recipients
still waiting need just as many escrows and just as much of the funds as are left. Every claim
keeps this, and the order in which they come is never asked for.
-/

import Vesting.Proofs.Distribution.Rebuilding

namespace Vesting

/-- The call by which the recipient of a node claims with the stored proof. -/
def Node.claimCall (n : Node) : Grant.Call := .claim n.record (n.proof.getD [])

namespace Grant

variable {g : Grant} {d : Distribution} {served waiting : List Node} {n : Node}

theorem run_append (g : Grant) (first second : List Call) :
    g.run (first ++ second) =
      ((g.run first).1 ++ ((g.run first).2.run second).1, ((g.run first).2.run second).2) := by
  induction first generalizing g with
  | nil => rfl
  | cons call rest ih =>
      rw [List.cons_append]
      cases outcome : g.apply call with
      | error refusal => rw [run_cons_of_error outcome, run_cons_of_error outcome, ih]
      | ok result => rw [run_cons_of_ok outcome, run_cons_of_ok outcome, ih, List.cons_append]

/-- Funding calls, answered or not, change nothing but the funds. -/
theorem exists_run_fund (g : Grant) (amounts : List Int) :
    ∃ funds : Nat, (g.run (amounts.map Call.fund)).2 = g.withFunds funds := by
  induction amounts generalizing g with
  | nil => exact ⟨g.funded, rfl⟩
  | cons amount rest ih =>
      rw [List.map_cons]
      cases outcome : g.apply (.fund amount) with
      | error refusal =>
          rw [run_cons_of_error outcome]
          exact ih g
      | ok result =>
          rw [run_cons_of_ok outcome]
          obtain ⟨event, next⟩ := result
          cases apply_eq_ok_iff.1 outcome with
          | fund moves =>
              obtain ⟨funds, last⟩ := ih (g.withFunds (g.funded + g.share amount))
              exact ⟨funds, last⟩

/-- One call is enough to fund a grant fully. -/
theorem funded_run_fund_maxClaim (missing : g.funded < g.maxClaim) :
    (g.run ([(g.maxClaim : Int)].map .fund)).2.funded = g.maxClaim := by
  have whole : g.share g.maxClaim = g.maxClaim - g.funded := by
    rw [share, Int.toNat_natCast]
    omega
  have moves : 0 < g.share g.maxClaim := by omega
  rw [List.map_cons, run_cons_of_ok (apply_eq_ok_iff.2 (.fund moves)), whole]
  exact Nat.add_sub_cancel' (Nat.le_of_lt missing)

/-- A grant with the ceilings of a distribution, fully funded, from which exactly the
recipients of some nodes have claimed. -/
structure Serves (d : Distribution) (served : List Node) (g : Grant) : Prop where
  active : g.cancelled = false
  root : g.root = d.root
  maxClaim : g.maxClaim = Batch.amount d.records
  maxEscrows : g.maxEscrows = d.nodes.length
  funded : g.funded = g.maxClaim
  claimed : g.claimed = (served.map (·.record.recipient)).reverse
  created : g.created = served.length
  distributed : g.distributed = Batch.amount (served.map (·.record))

/-- What has been handed out and what is still waited for add up to all there is. -/
theorem Serves.amount_eq (before : Serves d served g) (order : (served ++ waiting).Perm d.nodes) :
    g.distributed + Batch.amount (waiting.map (·.record)) = g.maxClaim := by
  rw [before.distributed, before.maxClaim, Distribution.records,
    ← Batch.amount_eq_of_perm (order.map (·.record)), List.map_append, Batch.amount_append]

/-- Whoever is still waiting may claim with the stored proof. -/
theorem Serves.allows (before : Serves d served g) (consistent : d.Consistent)
    (order : (served ++ n :: waiting).Perm d.nodes) :
    ∃ siblings : List Bytes, n.proof = some siblings ∧ g.Allows n.record siblings := by
  have member : n ∈ d.nodes := order.subset (by simp)
  have listed : n.record ∈ d.records := List.mem_map_of_mem member
  obtain ⟨siblings, stored, accepted⟩ := consistent.proofs n member
  obtain ⟨tree, built, -⟩ := consistent.root
  have sensible := (Batch.exists_tree_iff.1 ⟨tree, built⟩).2 n.record listed
  have distinct : ((served ++ n :: waiting).map (·.record.recipient)).Nodup := by
    rw [(order.map (·.record.recipient)).nodup_iff]
    have records := consistent.distinct
    rwa [Distribution.records, List.map_map] at records
  have newcomer : n.record.recipient ∉ served.map (·.record.recipient) := by
    rw [List.map_append, List.map_cons] at distinct
    intro earlier
    exact (List.nodup_append.1 distinct).2.2 _ earlier _ List.mem_cons_self rfl
  have count := order.length_eq
  have share := before.amount_eq order
  rw [List.length_append, List.length_cons] at count
  rw [List.map_cons, Batch.amount_cons] at share
  refine ⟨siblings, stored, ?_⟩
  exact
    { active := before.active
      sensible := Record.violations_eq_nil_iff.2 sensible
      proved := before.root ▸ accepted
      fresh := by rwa [before.claimed, List.mem_reverse]
      spare := by
        rw [before.created, before.maxEscrows]
        omega
      inRange := by
        have whole := consistent.claim ▸ word_le_wordMax d.maxClaim
        exact Nat.le_trans (Batch.amount_le_of_mem listed) whole
      belowCeiling := by omega
      covered := by
        rw [before.funded]
        omega }

/-- A claim serves one recipient more. -/
theorem Serves.afterClaim (before : Serves d served g) (n : Node) :
    Serves d (served ++ [n]) (g.afterClaim n.record) where
  active := before.active
  root := before.root
  maxClaim := before.maxClaim
  maxEscrows := before.maxEscrows
  funded := before.funded
  claimed := by simp [Grant.afterClaim, before.claimed]
  created := by simp [Grant.afterClaim, before.created]
  distributed := by simp [Grant.afterClaim, before.distributed, Batch.amount_append]

theorem Serves.apply_claimCall (before : Serves d served g) (consistent : d.Consistent)
    (order : (served ++ n :: waiting).Perm d.nodes) :
    g.apply n.claimCall = .ok (.claimed n.record n.record.amount, g.afterClaim n.record) := by
  obtain ⟨siblings, stored, allowed⟩ := before.allows consistent order
  rw [Node.claimCall, stored, Option.getD_some]
  exact apply_eq_ok_iff.2 (.claim allowed)

/-- Those who are next are served one after another, whoever is waiting behind them. -/
theorem Serves.run {next later : List Node} (before : Serves d served g)
    (consistent : d.Consistent) (order : (served ++ (next ++ later)).Perm d.nodes) :
    Serves d (served ++ next) (g.run (next.map Node.claimCall)).2 := by
  induction next generalizing served g with
  | nil => rwa [List.append_nil]
  | cons n rest ih =>
      rw [List.cons_append] at order
      rw [List.map_cons, run_cons_of_ok (before.apply_claimCall consistent order), List.append_cons]
      rw [List.append_cons] at order
      exact ih (before.afterClaim n) order

/-- A grant from which all that a distribution promises has been drawn: as many escrows as
there are to be, all of the funds, which are at their ceiling, and by its recipients only. -/
structure PaidOut (d : Distribution) (g : Grant) : Prop where
  maxEscrows : g.maxEscrows = d.maxEscrows.toNat
  created : g.created = g.maxEscrows
  maxClaim : g.maxClaim = d.maxClaim.toNat
  distributed : g.distributed = g.maxClaim
  funded : g.funded = g.maxClaim
  claimed : ∀ r : Recipient, r ∈ g.claimed ↔ r ∈ d.records.map (·.recipient)

/-- When all have been served, everything has been paid out. -/
theorem Serves.paidOut (all : Serves d served g) (consistent : d.Consistent)
    (order : served.Perm d.nodes) : PaidOut d g where
  maxEscrows := all.maxEscrows.trans consistent.count
  created := by rw [all.created, order.length_eq, all.maxEscrows]
  maxClaim := all.maxClaim.trans consistent.claim
  distributed := by
    have none : (served ++ []).Perm d.nodes := by rwa [List.append_nil]
    exact all.amount_eq none
  funded := all.funded
  claimed := by
    intro r
    rw [all.claimed, List.mem_reverse, (order.map _).mem_iff, Distribution.records, List.map_map]
    rfl

/-- Before anyone has claimed, a fully funded grant serves nobody. -/
theorem serves_nil (creator : Bytes) (version : Int) (consistent : d.Consistent) {funds : Nat}
    (funded : funds = d.maxClaim.toNat) :
    Serves d [] ((blank creator d.root d.maxClaim.toNat d.maxEscrows.toNat version).withFunds funds)
    where
  active := rfl
  root := rfl
  maxClaim := consistent.claim.symm
  maxEscrows := consistent.count.symm
  funded := funded
  claimed := rfl
  created := rfl
  distributed := rfl

theorem amount_pos_of_buildAs_eq_ok {records : List Record} {version : Value}
    (given : Distribution.buildAs records version = .ok d) :
    0 < Batch.amount d.records ∧ d.Consistent := by
  obtain ⟨acceptable, consistent, tree, number, built, rfl⟩ :=
    Distribution.exists_ofTree_of_buildAs_eq_ok given
  obtain ⟨r, member⟩ := List.exists_mem_of_ne_nil records acceptable.nonempty
  rw [Distribution.records_ofTree built]
  exact ⟨Batch.amount_pos_iff.2 ⟨r, member, acceptable.amount_pos r member⟩, consistent⟩

/-- With what is built a grant is opened. Once funding calls have brought its funds to the
ceiling, all nodes' recipients can claim with their stored proofs in any order, each claim is
answered, and in the end there are as many escrows as may be, all funds have been handed out,
and exactly the recipients of the batch have claimed. -/
theorem everyone_claims {records : List Record} {version : Value}
    (given : Distribution.buildAs records version = .ok d) (creator : Bytes) :
    ∃ g : Grant, ofDistribution d creator = .ok g ∧
      ∀ (amounts : List Int) (queue : List Node),
        (g.run (amounts.map .fund)).2.funded = g.maxClaim → queue.Perm d.nodes →
        (∀ (earlier : List Node) (n : Node) (later : List Node), queue = earlier ++ n :: later →
          ∃ (siblings : List Bytes) (next : Grant), n.proof = some siblings ∧
            (g.run (amounts.map .fund ++ earlier.map Node.claimCall)).2.apply
              (.claim n.record siblings) = .ok (.claimed n.record n.record.amount, next)) ∧
        PaidOut d (g.run (amounts.map .fund ++ queue.map Node.claimCall)).2 := by
  obtain ⟨something, consistent⟩ := amount_pos_of_buildAs_eq_ok given
  refine ⟨_, consistent.ofDistribution_eq_ok something creator, ?_⟩
  intro amounts queue funded order
  obtain ⟨funds, after⟩ := exists_run_fund (blank creator d.root d.maxClaim.toNat _ _) amounts
  rw [after] at funded
  have start := serves_nil creator d.version.toNat consistent funded
  simp only [run_append, after]
  constructor
  · rintro earlier n later rfl
    have before := start.run consistent order
    obtain ⟨siblings, stored, allowed⟩ := before.allows consistent order
    exact ⟨siblings, _, stored, apply_eq_ok_iff.2 (.claim allowed)⟩
  · have none : (queue ++ []).Perm d.nodes := by rwa [List.append_nil]
    exact (start.run consistent none).paidOut consistent order

open Vesting.Distribution in
/-- Of two recipients the second one claims first. -/
theorem everyone_claims_twins :
    ∃ (d : Distribution) (g : Grant), buildAs twins (.int 7) = .ok d ∧
      ofDistribution d [] = .ok g ∧ (g.run ([(g.maxClaim : Int)].map .fund)).2.funded = g.maxClaim ∧
      PaidOut d
        (g.run ([(g.maxClaim : Int)].map .fund ++ d.nodes.reverse.map Node.claimCall)).2 := by
  obtain ⟨tree, built, given⟩ := buildAs_of_acceptable acceptable_twins (by decide) 7
  obtain ⟨g, opened, pays⟩ := everyone_claims given []
  have missing : g.funded < g.maxClaim := by
    obtain ⟨claim, -, -, rfl⟩ := create_eq_ok_iff.1 opened
    exact Int.pos_iff_toNat_pos.1 claim.1
  have funded := funded_run_fund_maxClaim missing
  have order := List.reverse_perm (ofTree tree twins 7).nodes
  exact ⟨_, g, given, opened, funded, (pays _ _ funded order).2⟩

end Grant

end Vesting
