/-
# Grants

A grant is the ledger entry of one batch: the committed root, the issuer who may change
it, and the counters that bound what can be drawn. It is opened with two ceilings, funded
up to the first, and each recipient can claim once, with a proof against the root that is
committed at the time. The issuer may rotate the root to a different one and may cancel
the grant, which then stays as it is.

Every call either gives an event and the grant that follows, or is refused; a refused
call leaves nothing behind.
-/

import Vesting.Distribution
import Vesting.Inclusion

namespace Vesting

/-- The ledger entry of a batch grant. -/
structure Grant where
  creator : Bytes
  root : Bytes
  /-- The most that may be drawn in all. -/
  maxClaim : Nat
  /-- The most recipients that may claim. -/
  maxEscrows : Nat
  version : Int
  funded : Nat
  created : Nat
  distributed : Nat
  cancelled : Bool
  /-- Who has claimed, latest first. -/
  claimed : List Recipient
  deriving DecidableEq

namespace Grant

/-- What a call does to a grant. -/
inductive Event
  /-- So much was added to the funds, which are now so much in all. -/
  | funded (amount total : Nat)
  /-- The recipient of a record has claimed its total. -/
  | claimed (record : Record) (deposit : Nat)
  | rotated (signer oldRoot newRoot : Bytes)
  | cancelled (signer : Bytes)
  deriving DecidableEq

/-- A call of a grant. -/
inductive Call
  | fund (amount : Int)
  | claim (record : Record) (siblings : List Bytes)
  | rotate (newRoot signer : Bytes)
  | cancel (signer : Bytes)
  deriving DecidableEq

/-- The outcome of a call: an event and the grant that follows. -/
abbrev Outcome := Except Refusal (Event × Grant)

/-- The refusal of ceilings out of range. -/
def badCeilings (maxClaim maxEscrows : Int) : Refusal :=
  .invalidParams "max_claim_amount and max_escrow must be positive u64 values"
    [("max_claim_amount", .int maxClaim), ("max_escrow", .int maxEscrows)]

/-- The refusal of a root that is no hash. -/
def badRoot (root : Bytes) : Refusal :=
  .invalidParams s!"root must be {hashSize} bytes, got {root.length}" []

/-- Whether a ceiling is positive and fits a word. -/
def isCeiling (n : Int) : Bool := 0 < n && n ≤ Record.wordMax

def create (creator root : Bytes) (maxClaim maxEscrows version : Int) : Except Refusal Grant :=
  if !(isCeiling maxClaim && isCeiling maxEscrows) then .error (badCeilings maxClaim maxEscrows)
  else if root.length ≠ hashSize then .error (badRoot root)
  else .ok
    { creator := creator
      root := root
      maxClaim := maxClaim.toNat
      maxEscrows := maxEscrows.toNat
      version := version
      funded := 0
      created := 0
      distributed := 0
      cancelled := false
      claimed := [] }

def ofDistribution (d : Distribution) (creator : Bytes) : Except Refusal Grant :=
  create creator d.root d.maxClaim.toNat d.maxEscrows.toNat d.version.toNat

/-- Add to the funds, but not beyond the ceiling. -/
def fund (g : Grant) (amount : Int) : Outcome :=
  let added : Int := min (g.maxClaim - g.funded) amount
  if added ≤ 0 then .error (.amountIsZero Refusal.zeroMessage)
  else
    let total := g.funded + added.toNat
    .ok (.funded added.toNat total, { g with funded := total })

/-- Whether a path leads from a record to the committed root. -/
def verify (g : Grant) (record : Record) (siblings : List Bytes) : Verdict :=
  Inclusion.check record siblings g.root

/-- The refusal of a proof that leads elsewhere: it shows the whole report. -/
def badProof (g : Grant) (record : Record) (siblings : List Bytes) : Refusal :=
  .proofRejected Refusal.proofMessage (some record.recipient.toHex)
    (Inclusion.mismatch record siblings g.root).fields

/-- What a refused claim says about the amount drawn so far. -/
def drawn (g : Grant) : Fields := [("total_distribute_amount", .int g.distributed)]

/-- The refusal of a claim when all escrows exist. -/
def allCreated (g : Grant) : Refusal :=
  .limitReached s!"All {g.maxEscrows} escrows already created" "ESCROW_LIMIT_REACHED" []

/-- The refusal of a claim above the ceiling. -/
def aboveCeiling (g : Grant) (deposit : Nat) : Refusal :=
  .limitReached s!"Distributing {deposit} exceeds max_claim_amount {g.maxClaim}"
    "CLAIM_CEILING_EXCEEDED" g.drawn

/-- The refusal of a claim above the funds. -/
def aboveFunds (g : Grant) (deposit : Nat) : Refusal :=
  .limitReached s!"Distributing {deposit} exceeds funded amount {g.funded}"
    "INSUFFICIENT_FUNDS" g.drawn

def claim (g : Grant) (record : Record) (siblings : List Bytes) : Outcome :=
  if g.cancelled then .error (.alreadyCancelled Refusal.cancelledMessage)
  else match record.reports none with
    | report :: _ => .error report.toRefusal
    | [] =>
      if !Inclusion.holds record siblings g.root then .error (g.badProof record siblings)
      else if g.claimed.contains record.recipient then
        .error (.alreadyClaimed record.recipient.toHex)
      else if g.maxEscrows ≤ g.created then .error g.allCreated
      else match record.total with
        | .error refusal => .error refusal
        | .ok deposit =>
          if g.maxClaim < g.distributed + deposit then .error (g.aboveCeiling deposit)
          else if g.funded < g.distributed + deposit then .error (g.aboveFunds deposit)
          else .ok (.claimed record deposit,
            { g with
              claimed := record.recipient :: g.claimed
              created := g.created + 1
              distributed := g.distributed + deposit })

/-- Whether rotating to a root would change nothing. -/
def isNoop (currentRoot newRoot : Bytes) : Bool := currentRoot == newRoot

def rotate (g : Grant) (newRoot signer : Bytes) : Outcome :=
  if signer ≠ g.creator then .error (.notPermitted Refusal.notPermittedMessage [])
  else if g.cancelled then .error (.alreadyCancelled Refusal.cancelledMessage)
  else if newRoot.length ≠ hashSize then .error (badRoot newRoot)
  else if isNoop g.root newRoot then .error (.duplicateRoot (toHex newRoot))
  else .ok (.rotated signer g.root newRoot, { g with root := newRoot })

def cancel (g : Grant) (signer : Bytes) : Outcome :=
  if signer ≠ g.creator then .error (.notPermitted Refusal.notPermittedMessage [])
  else if g.cancelled then .error (.alreadyCancelled Refusal.cancelledMessage)
  else .ok (.cancelled signer, { g with cancelled := true })

def apply (g : Grant) : Call → Outcome
  | .fund amount => g.fund amount
  | .claim record siblings => g.claim record siblings
  | .rotate newRoot signer => g.rotate newRoot signer
  | .cancel signer => g.cancel signer

/-- Answer calls one after another; refused calls leave the grant as it is. The events are
given with the grant at the end. -/
def run (g : Grant) : List Call → List Event × Grant
  | [] => ([], g)
  | call :: rest =>
    match g.apply call with
    | .error _ => g.run rest
    | .ok (event, next) =>
      let (events, last) := next.run rest
      (event :: events, last)

end Grant

end Vesting
