/-
# What calls do to a grant

A call that a grant answers takes one of four steps, and the step says all there is to say
about it: what has to hold before, the event, and the grant that follows. Every other call is
refused, and over a run a refused call leaves the grant as it is.

Main statements: a call is answered exactly by its step, and what every step keeps holds
along every run. Nothing else about the four operations is needed to follow a grant through
its life.
-/

import Vesting.Grant

namespace Vesting

theorem Record.reports_eq_nil_iff {record : Record} {index : Option Int} :
    record.reports index = [] ↔ record.violations = [] := List.map_eq_nil_iff

namespace Grant

variable {g next : Grant} {call : Call} {event : Event}

/-! ## The four steps -/

/-- What a funding call adds: what was offered, but no more than is missing. -/
def share (g : Grant) (amount : Int) : Nat := min (g.maxClaim - g.funded) amount.toNat

theorem share_pos_iff {amount : Int} : 0 < g.share amount ↔ g.funded < g.maxClaim ∧ 0 < amount := by
  unfold share
  omega

/-- The grant with so much in funds. -/
def withFunds (g : Grant) (funds : Nat) : Grant := { g with funded := funds }

/-- What has to hold for a claim to be answered. -/
structure Allows (g : Grant) (record : Record) (siblings : List Bytes) : Prop where
  active : g.cancelled = false
  sensible : record.violations = []
  proved : Inclusion.holds record siblings g.root = true
  fresh : record.recipient ∉ g.claimed
  spare : g.created < g.maxEscrows
  inRange : record.amount ≤ Record.wordMax
  belowCeiling : g.distributed + record.amount ≤ g.maxClaim
  covered : g.distributed + record.amount ≤ g.funded

/-- The grant after the recipient of a record has claimed. -/
def afterClaim (g : Grant) (record : Record) : Grant :=
  { g with
    claimed := record.recipient :: g.claimed
    created := g.created + 1
    distributed := g.distributed + record.amount }

/-- What a call that is answered does to a grant. -/
inductive Step (g : Grant) : Call → Event → Grant → Prop
  | fund {amount : Int} (moves : 0 < g.share amount) :
      Step g (.fund amount) (.funded (g.share amount) (g.funded + g.share amount))
        (g.withFunds (g.funded + g.share amount))
  | claim {record : Record} {siblings : List Bytes} (allowed : g.Allows record siblings) :
      Step g (.claim record siblings) (.claimed record record.amount) (g.afterClaim record)
  | rotate {newRoot : Bytes} (active : g.cancelled = false) (size : newRoot.length = hashSize)
      (differs : g.root ≠ newRoot) :
      Step g (.rotate newRoot g.creator) (.rotated g.creator g.root newRoot)
        { g with root := newRoot }
  | cancel (active : g.cancelled = false) :
      Step g (.cancel g.creator) (.cancelled g.creator) { g with cancelled := true }

theorem fund_eq_ok_iff {amount : Int} :
    g.fund amount = .ok (event, next) ↔ Step g (.fund amount) event next := by
  have added : (min ((g.maxClaim : Int) - g.funded) amount).toNat = g.share amount := by
    unfold share
    omega
  have nothing : min ((g.maxClaim : Int) - g.funded) amount ≤ 0 ↔ g.share amount = 0 := by
    unfold share
    omega
  simp only [fund, added, nothing]
  constructor
  · intro answered
    split at answered
    · cases answered
    rename_i moves
    cases answered
    exact .fund (Nat.pos_of_ne_zero moves)
  · intro step
    cases step with
    | fund moves => rw [if_neg (Nat.ne_of_gt moves), withFunds]

/-- The checks of a claim, one after another, leave nothing but what has to hold. -/
theorem claim_eq_ok_iff {record : Record} {siblings : List Bytes} :
    g.claim record siblings = .ok (event, next) ↔ Step g (.claim record siblings) event next := by
  constructor
  · intro answered
    unfold claim at answered
    split at answered
    · cases answered
    rename_i active
    split at answered
    · cases answered
    rename_i sensible
    split at answered
    · cases answered
    rename_i proved
    split at answered
    · cases answered
    rename_i fresh
    split at answered
    · cases answered
    rename_i spare
    split at answered
    · cases answered
    rename_i deposit total
    obtain ⟨rfl, inRange⟩ := (record.total_eq_ok_iff deposit).1 total
    split at answered
    · cases answered
    rename_i belowCeiling
    split at answered
    · cases answered
    rename_i covered
    cases answered
    exact .claim
      { active := by simpa using active
        sensible := Record.reports_eq_nil_iff.1 sensible
        proved := by simpa using proved
        fresh := by simpa using fresh
        spare := Nat.lt_of_not_le spare
        inRange := inRange
        belowCeiling := Nat.le_of_not_lt belowCeiling
        covered := Nat.le_of_not_lt covered }
  · intro step
    cases step with
    | claim allowed =>
        have total : record.total = .ok record.amount :=
          (record.total_eq_ok_iff _).2 ⟨rfl, allowed.inRange⟩
        have unclaimed : g.claimed.contains record.recipient = false := by
          simpa using allowed.fresh
        simp only [claim, allowed.active, Record.reports_eq_nil_iff.2 allowed.sensible,
          allowed.proved, unclaimed, total, Bool.false_eq_true, Bool.not_true, if_false,
          Nat.not_le_of_lt allowed.spare, Nat.not_lt_of_le allowed.belowCeiling,
          Nat.not_lt_of_le allowed.covered, afterClaim]

theorem rotate_eq_ok_iff {newRoot signer : Bytes} :
    g.rotate newRoot signer = .ok (event, next) ↔ Step g (.rotate newRoot signer) event next := by
  constructor
  · intro answered
    unfold rotate at answered
    split at answered
    · cases answered
    rename_i permitted
    obtain rfl := Decidable.not_not.1 permitted
    split at answered
    · cases answered
    rename_i active
    split at answered
    · cases answered
    rename_i size
    split at answered
    · cases answered
    rename_i differs
    cases answered
    exact .rotate (by simpa using active) (Decidable.not_not.1 size)
      (by simpa [isNoop] using differs)
  · intro step
    cases step with
    | rotate active size differs => simp [rotate, active, size, isNoop, differs]

theorem cancel_eq_ok_iff {signer : Bytes} :
    g.cancel signer = .ok (event, next) ↔ Step g (.cancel signer) event next := by
  constructor
  · intro answered
    unfold cancel at answered
    split at answered
    · cases answered
    rename_i permitted
    obtain rfl := Decidable.not_not.1 permitted
    split at answered
    · cases answered
    rename_i active
    cases answered
    exact .cancel (by simpa using active)
  · intro step
    cases step with
    | cancel active => simp [cancel, active]

/-- A call is answered exactly by its step. -/
theorem apply_eq_ok_iff : g.apply call = .ok (event, next) ↔ Step g call event next := by
  cases call with
  | fund amount => exact fund_eq_ok_iff
  | claim record siblings => exact claim_eq_ok_iff
  | rotate newRoot signer => exact rotate_eq_ok_iff
  | cancel signer => exact cancel_eq_ok_iff

/-! ## Runs -/

theorem run_cons_of_error {refusal : Refusal} (refused : g.apply call = .error refusal)
    (rest : List Call) : g.run (call :: rest) = g.run rest := by
  rw [run, refused]

theorem run_cons_of_ok (answered : g.apply call = .ok (event, next)) (rest : List Call) :
    g.run (call :: rest) = (event :: (next.run rest).1, (next.run rest).2) := by
  rw [run, answered]

/-- What every step keeps, of the events so far and the grant they led to, holds along every
run. -/
theorem run_induction {motive : List Event → Grant → Prop}
    (keeps : ∀ {past : List Event} {g next : Grant} {call : Call} {event : Event},
      motive past g → Step g call event next → motive (past ++ [event]) next)
    {past : List Event} {g : Grant} (start : motive past g) (calls : List Call) :
    motive (past ++ (g.run calls).1) (g.run calls).2 := by
  induction calls generalizing past g with
  | nil => simpa [run] using start
  | cons call rest ih =>
      cases outcome : g.apply call with
      | error refusal =>
          rw [run_cons_of_error outcome]
          exact ih start
      | ok result =>
          rw [run_cons_of_ok outcome]
          simpa using ih (keeps start (apply_eq_ok_iff.1 outcome))

/-! ## Grants as they are opened -/

/-- A grant from which nothing has been drawn yet. -/
def blank (creator root : Bytes) (maxClaim maxEscrows : Nat) (version : Int) : Grant where
  creator := creator
  root := root
  maxClaim := maxClaim
  maxEscrows := maxEscrows
  version := version
  funded := 0
  created := 0
  distributed := 0
  cancelled := false
  claimed := []

theorem isCeiling_iff {n : Int} : isCeiling n = true ↔ 0 < n ∧ n ≤ Record.wordMax := by
  simp [isCeiling]

theorem create_eq_ok_iff {creator root : Bytes} {maxClaim maxEscrows version : Int} :
    create creator root maxClaim maxEscrows version = .ok g ↔
      (0 < maxClaim ∧ maxClaim ≤ Record.wordMax) ∧ (0 < maxEscrows ∧ maxEscrows ≤ Record.wordMax) ∧
        root.length = hashSize ∧
        g = blank creator root maxClaim.toNat maxEscrows.toNat version := by
  unfold create
  constructor
  · intro opened
    split at opened
    · cases opened
    rename_i ceilings
    split at opened
    · cases opened
    rename_i size
    cases opened
    have both : isCeiling maxClaim = true ∧ isCeiling maxEscrows = true := by simpa using ceilings
    exact ⟨isCeiling_iff.1 both.1, isCeiling_iff.1 both.2, Decidable.not_not.1 size, rfl⟩
  · rintro ⟨claim, escrows, size, rfl⟩
    simp [isCeiling_iff.2 claim, isCeiling_iff.2 escrows, size, blank]

/-- A grant that was opened, with ceilings of its own or with the totals of a distribution. -/
inductive Opened : Grant → Prop
  | create {creator root : Bytes} {maxClaim maxEscrows version : Int} {g : Grant}
      (opened : Grant.create creator root maxClaim maxEscrows version = .ok g) : Opened g
  | ofDistribution {d : Distribution} {creator : Bytes} {g : Grant}
      (opened : Grant.ofDistribution d creator = .ok g) : Opened g

theorem Opened.exists_blank (opened : Opened g) :
    ∃ (creator root : Bytes) (maxClaim maxEscrows : Nat) (version : Int),
      g = blank creator root maxClaim maxEscrows version ∧ maxClaim ≤ Record.wordMax ∧
        0 < maxClaim ∧ 0 < maxEscrows ∧ root.length = hashSize := by
  obtain ⟨creator, root, maxClaim, maxEscrows, version, created⟩ :
      ∃ (creator root : Bytes) (maxClaim maxEscrows version : Int),
        Grant.create creator root maxClaim maxEscrows version = .ok g := by
    cases opened with
    | create opened => exact ⟨_, _, _, _, _, opened⟩
    | ofDistribution opened => exact ⟨_, _, _, _, _, opened⟩
  obtain ⟨claim, escrows, size, rfl⟩ := create_eq_ok_iff.1 created
  exact ⟨creator, root, maxClaim.toNat, maxEscrows.toNat, version, rfl, by omega, by omega,
    by omega, size⟩

theorem opened_blank {creator root : Bytes} {maxClaim maxEscrows : Nat} {version : Int}
    (claim : 0 < maxClaim ∧ maxClaim ≤ Record.wordMax)
    (escrows : 0 < maxEscrows ∧ maxEscrows ≤ Record.wordMax) (size : root.length = hashSize) :
    Opened (blank creator root maxClaim maxEscrows version) := by
  have created : Grant.create creator root maxClaim maxEscrows version =
      .ok (blank creator root maxClaim maxEscrows version) :=
    create_eq_ok_iff.2 ⟨by omega, by omega, size, rfl⟩
  exact .create created

/-- A grant that some calls lead to from one that was opened. -/
def Reachable (g : Grant) : Prop :=
  ∃ start : Grant, Opened start ∧ ∃ calls : List Call, (start.run calls).2 = g

end Grant

end Vesting
