/-
# The roots of a grant and who changed them

The root that a grant is committed to can be read off its events: it is the one that the last
rotation brought, or else the first one. Every rotation was made by the issuer, from the root
of the time to another one, and none was made after the grant had been cancelled, which the
issuer alone can do and only once. Everything else that a grant was opened with stays as it is,
and neither rotating nor cancelling touches what was funded and claimed.

The invariant says of every event what came before it, so that it need not be known how the
calls and the events of a run belong together.
-/

import Vesting.Proofs.Grant.Calls

namespace Vesting.Grant

/-- The root that an event brings, if it is a rotation. -/
def Event.newRoot? : Event → Option Bytes
  | .rotated _ _ newRoot => some newRoot
  | _ => none

/-- The root after some events: the one of the last rotation, or else the first one. -/
def rootAfter (first : Bytes) (events : List Event) : Bytes :=
  (events.filterMap Event.newRoot?).getLast?.getD first

/-- None of some events is a cancellation. -/
def Uncancelled (events : List Event) : Prop := ∀ signer : Bytes, .cancelled signer ∉ events

/-- What may come after some events of a grant: nothing is asked of fundings and claims. -/
inductive Follows (g : Grant) (past : List Event) : Event → Prop
  | funded (amount total : Nat) : Follows g past (.funded amount total)
  | claimed (record : Record) (deposit : Nat) : Follows g past (.claimed record deposit)
  | rotated {newRoot : Bytes} (active : Uncancelled past)
      (differs : newRoot ≠ rootAfter g.root past) :
      Follows g past (.rotated g.creator (rootAfter g.root past) newRoot)
  | cancelled (active : Uncancelled past) : Follows g past (.cancelled g.creator)

/-- Every event may come after those before it. -/
def Lawful (g : Grant) (events : List Event) : Prop :=
  ∀ (past : List Event) (event : Event) (later : List Event), events = past ++ event :: later →
    Follows g past event

/-- A grant keeps what it was opened with. -/
structure SameTerms (g later : Grant) : Prop where
  creator : later.creator = g.creator
  version : later.version = g.version
  maxClaim : later.maxClaim = g.maxClaim
  maxEscrows : later.maxEscrows = g.maxEscrows

/-- Nothing has been funded or claimed between two grants. -/
structure SameAccounts (g later : Grant) : Prop where
  funded : later.funded = g.funded
  created : later.created = g.created
  distributed : later.distributed = g.distributed
  claimed : later.claimed = g.claimed

/-- What the events since a grant was opened tell about it. -/
structure History (g : Grant) (past : List Event) (later : Grant) : Prop where
  terms : SameTerms g later
  size : later.root.length = hashSize
  root : later.root = rootAfter g.root past
  uncancelled : later.cancelled = false → Uncancelled past
  lawful : Lawful g past

variable {g later next : Grant} {past : List Event} {call : Call} {event : Event}

theorem rootAfter_concat (first : Bytes) :
    rootAfter first (past ++ [event]) = event.newRoot?.getD (rootAfter first past) := by
  cases brought : event.newRoot? <;> simp [rootAfter, brought]

theorem Uncancelled.concat (before : Uncancelled past)
    (other : ∀ signer : Bytes, event ≠ .cancelled signer) : Uncancelled (past ++ [event]) := by
  intro signer member
  rcases List.mem_append.1 member with earlier | latest
  · exact before signer earlier
  · exact other signer (List.mem_singleton.1 latest).symm

/-- An event that may come next makes for a longer lawful history. -/
theorem Lawful.concat (before : Lawful g past) (latest : Follows g past event) :
    Lawful g (past ++ [event]) := by
  intro earlier other later split
  rcases List.eq_nil_or_concat later with rfl | ⟨between, last, rfl⟩
  · obtain ⟨rfl, same⟩ := List.append_inj' split rfl
    obtain rfl := List.singleton_inj.1 same
    exact latest
  · have joined : past ++ [event] = (earlier ++ other :: between) ++ [last] := by
      rw [split, List.append_assoc, List.cons_append, List.concat_eq_append]
    exact before earlier other between (List.append_inj' joined rfl).1

/-- Every step carries the history on. -/
theorem history_step (before : History g past later) (step : Step later call event next) :
    History g (past ++ [event]) next := by
  have terms := before.terms
  cases step with
  | @fund amount moves =>
      exact
        { terms := ⟨terms.creator, terms.version, terms.maxClaim, terms.maxEscrows⟩
          size := before.size
          root := (rootAfter_concat g.root).symm ▸ before.root
          uncancelled := fun active => (before.uncancelled active).concat nofun
          lawful := before.lawful.concat (.funded _ _) }
  | @claim record siblings allowed =>
      exact
        { terms := ⟨terms.creator, terms.version, terms.maxClaim, terms.maxEscrows⟩
          size := before.size
          root := (rootAfter_concat g.root).symm ▸ before.root
          uncancelled := fun active => (before.uncancelled active).concat nofun
          lawful := before.lawful.concat (.claimed _ _) }
  | @rotate newRoot active size differs =>
      have uncancelled := before.uncancelled active
      have follows : Follows g past (.rotated later.creator later.root newRoot) := by
        rw [terms.creator, before.root]
        exact .rotated uncancelled fun same => differs (before.root.trans same.symm)
      exact
        { terms := ⟨terms.creator, terms.version, terms.maxClaim, terms.maxEscrows⟩
          size := size
          root := by rw [rootAfter_concat]; rfl
          uncancelled := fun _ => uncancelled.concat nofun
          lawful := before.lawful.concat follows }
  | cancel active =>
      have follows : Follows g past (.cancelled later.creator) := by
        rw [terms.creator]
        exact .cancelled (before.uncancelled active)
      exact
        { terms := ⟨terms.creator, terms.version, terms.maxClaim, terms.maxEscrows⟩
          size := before.size
          root := (rootAfter_concat g.root).symm ▸ before.root
          uncancelled := nofun
          lawful := before.lawful.concat follows }

theorem history_of_opened (opened : Opened g) : History g [] g := by
  obtain ⟨creator, root, maxClaim, maxEscrows, version, rfl, -, -, -, size⟩ := opened.exists_blank
  exact
    { terms := ⟨rfl, rfl, rfl, rfl⟩
      size := size
      root := rfl
      uncancelled := fun _ _ => List.not_mem_nil
      lawful := fun _ _ _ split => absurd split (by simp) }

theorem history_run (opened : Opened g) (calls : List Call) :
    History g (g.run calls).1 (g.run calls).2 :=
  run_induction (motive := History g) history_step (history_of_opened opened) calls

/-- A rotation or a cancellation, answered or not, leaves the accounts alone. -/
theorem sameAccounts_run_singleton
    (issuers : (∃ newRoot signer : Bytes, call = .rotate newRoot signer) ∨
      ∃ signer : Bytes, call = .cancel signer) : SameAccounts g (g.run [call]).2 := by
  cases outcome : g.apply call with
  | error refusal =>
      rw [run_cons_of_error outcome]
      exact ⟨rfl, rfl, rfl, rfl⟩
  | ok result =>
      rw [run_cons_of_ok outcome]
      obtain ⟨event, next⟩ := result
      cases apply_eq_ok_iff.1 outcome with
      | fund moves => simp at issuers
      | claim allowed => simp at issuers
      | rotate active size differs => exact ⟨rfl, rfl, rfl, rfl⟩
      | cancel active => exact ⟨rfl, rfl, rfl, rfl⟩

/-- After any calls of a grant that was opened, answered or refused: its root is a hash, and
it is the one that the last rotation brought, or else the first one. Every rotation was signed
by the creator, led from the root of the time to another one, and came before any cancellation;
the only cancellation, if there is one, was signed by the creator. The terms of the grant have
not changed. To rotate it now leads from its root to the new one, and neither this nor to
cancel it changes its accounts. -/
theorem root_history (opened : Opened g) (calls : List Call) :
    (g.run calls).2.root.length = 32 ∧
      (g.run calls).2.root = rootAfter g.root (g.run calls).1 ∧
      (∀ (past : List Event) (signer oldRoot newRoot : Bytes) (later : List Event),
        (g.run calls).1 = past ++ .rotated signer oldRoot newRoot :: later →
          signer = g.creator ∧ oldRoot = rootAfter g.root past ∧ newRoot ≠ oldRoot ∧
            ∀ other : Bytes, .cancelled other ∉ past) ∧
      (∀ (past : List Event) (signer : Bytes) (later : List Event),
        (g.run calls).1 = past ++ .cancelled signer :: later →
          signer = g.creator ∧ ∀ other : Bytes, .cancelled other ∉ past ++ later) ∧
      SameTerms g (g.run calls).2 ∧
      (∀ (call : Call) (signer oldRoot newRoot : Bytes) (next : Grant),
        (g.run calls).2.apply call = .ok (.rotated signer oldRoot newRoot, next) →
          oldRoot = (g.run calls).2.root ∧ next.root = newRoot) ∧
      (∀ newRoot signer : Bytes, SameAccounts (g.run calls).2
        ((g.run calls).2.run [.rotate newRoot signer]).2) ∧
      ∀ signer : Bytes, SameAccounts (g.run calls).2 ((g.run calls).2.run [.cancel signer]).2 := by
  have history := history_run opened calls
  refine ⟨history.size, history.root, ?_, ?_, history.terms, ?_,
    fun newRoot signer => sameAccounts_run_singleton (Or.inl ⟨newRoot, signer, rfl⟩),
    fun signer => sameAccounts_run_singleton (Or.inr ⟨signer, rfl⟩)⟩
  · intro past signer oldRoot newRoot later split
    cases history.lawful past _ later split with
    | rotated active differs => exact ⟨rfl, rfl, differs, active⟩
  · intro past signer later split
    cases history.lawful past _ later split with
    | cancelled active =>
        refine ⟨rfl, fun other member => ?_⟩
        rcases List.mem_append.1 member with earlier | afterwards
        · exact active other earlier
        -- A second cancellation would have the first one behind it.
        obtain ⟨between, rest, rfl⟩ := List.append_of_mem afterwards
        have again : (g.run calls).1 =
            (past ++ .cancelled g.creator :: between) ++ .cancelled other :: rest := by
          rw [split, List.append_assoc, List.cons_append]
        cases history.lawful _ _ rest again with
        | cancelled active => exact active g.creator (by simp)
  · intro call signer oldRoot newRoot next answered
    cases apply_eq_ok_iff.1 answered with
    | rotate active size differs => exact ⟨rfl, rfl⟩

/-- Two roots, each a hash. -/
def zeros : Bytes := List.replicate 32 0

def ones : Bytes := List.replicate 32 1

/-- The issuer rotates to the other root and back, is imitated, and cancels. -/
def unrest : List Call := [
  .rotate ones [5], .rotate zeros [5], .fund 3, .rotate ones [6], .rotate [1] [5], .rotate ones [5],
  .cancel [6], .cancel [5], .rotate zeros [5], .cancel [5]]

theorem root_history_unrest :
    Opened (blank [5] zeros 10 1 0) ∧
      ((blank [5] zeros 10 1 0).run unrest).1 =
        [.rotated [5] zeros ones, .rotated [5] ones zeros, .funded 3 3, .rotated [5] zeros ones] ++
          .cancelled [5] :: [] ∧
      ((blank [5] zeros 10 1 0).run unrest).2.root = ones ∧
      SameTerms (blank [5] zeros 10 1 0) ((blank [5] zeros 10 1 0).run unrest).2 ∧
      ∀ other : Bytes, Event.cancelled other ∉
        [.rotated [5] zeros ones, .rotated [5] ones zeros, .funded 3 3,
          .rotated [5] zeros ones] ++ [] := by
  have opened : Opened (blank [5] zeros 10 1 0) := opened_blank (by decide) (by decide) rfl
  have events : ((blank [5] zeros 10 1 0).run unrest).1 =
      [.rotated [5] zeros ones, .rotated [5] ones zeros, .funded 3 3, .rotated [5] zeros ones] ++
        .cancelled [5] :: [] := by decide +kernel
  obtain ⟨-, root, -, cancellations, terms, -⟩ := root_history opened unrest
  refine ⟨opened, events, ?_, terms, (cancellations _ _ _ events).2⟩
  rw [root, events]
  decide +kernel

end Vesting.Grant
