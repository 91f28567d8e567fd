/-
# Grants that are changed in place

A ledger holds a grant as one entry and changes its fields one at a time. A call reads the
fields as they are by then, and where a check fails it stops there: whatever it has assigned
before stays assigned, and whoever goes on finds the entry in that state. So it takes a
proof that a refused call leaves the entry as it was.
-/

import Vesting.Grant

namespace Vesting.Grant

/-- Something that is done to a grant in place. A refusal ends it but undoes nothing. -/
abbrev InPlace (α : Type) := ExceptT Refusal (StateM Grant) α

namespace InPlace

/-- Stop with a refusal where a check fails. -/
def refuseIf (bad : Bool) (refusal : Refusal) : InPlace Unit :=
  if bad then throw refusal else return ()

def fund (amount : Int) : InPlace Event := do
  let added : Int := min ((← get).maxClaim - (← get).funded) amount
  refuseIf (added ≤ 0) (.amountIsZero Refusal.zeroMessage)
  modify fun g => { g with funded := g.funded + added.toNat }
  return .funded added.toNat (← get).funded

def claim (record : Record) (siblings : List Bytes) : InPlace Event := do
  refuseIf (← get).cancelled (.alreadyCancelled Refusal.cancelledMessage)
  match record.reports none with
  | report :: _ => throw report.toRefusal
  | [] =>
    let verdict := (← get).verify record siblings
    refuseIf (!verdict.ok) ((← get).badProof record siblings)
    refuseIf ((← get).claimed.contains record.recipient) (.alreadyClaimed record.recipient.toHex)
    refuseIf ((← get).maxEscrows ≤ (← get).created) (← get).allCreated
    let deposit ← ofExcept record.total
    let distributed := (← get).distributed + deposit
    refuseIf ((← get).maxClaim < distributed) ((← get).aboveCeiling deposit)
    refuseIf ((← get).funded < distributed) ((← get).aboveFunds deposit)
    modify fun g => { g with claimed := record.recipient :: g.claimed }
    modify fun g => { g with created := g.created + 1 }
    modify fun g => { g with distributed := distributed }
    return .claimed record deposit

def rotate (newRoot signer : Bytes) : InPlace Event := do
  refuseIf (signer ≠ (← get).creator) (.notPermitted Refusal.notPermittedMessage [])
  refuseIf (← get).cancelled (.alreadyCancelled Refusal.cancelledMessage)
  refuseIf (newRoot.length ≠ hashSize) (badRoot newRoot)
  refuseIf (isNoop (← get).root newRoot) (.duplicateRoot (toHex newRoot))
  let oldRoot := (← get).root
  modify fun g => { g with root := newRoot }
  return .rotated signer oldRoot newRoot

def cancel (signer : Bytes) : InPlace Event := do
  refuseIf (signer ≠ (← get).creator) (.notPermitted Refusal.notPermittedMessage [])
  refuseIf (← get).cancelled (.alreadyCancelled Refusal.cancelledMessage)
  modify fun g => { g with cancelled := true }
  return .cancelled signer

def answer : Call → InPlace Event
  | .fund amount => fund amount
  | .claim record siblings => claim record siblings
  | .rotate newRoot signer => rotate newRoot signer
  | .cancel signer => cancel signer

/-- Answer calls one after another; a refusal is caught, and the next call finds the entry
that it left behind. The events are given in order. -/
def answerAll : List Call → StateM Grant (List Event)
  | [] => return []
  | call :: rest => do
    match ← (answer call).run with
    | .error _ => answerAll rest
    | .ok event => return event :: (← answerAll rest)

end InPlace

end Vesting.Grant
