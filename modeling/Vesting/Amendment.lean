/-
# Amendments

The record set of a grant is amended by appending records and by dropping recipients; the
others keep their order. An amendment is planned by building the distribution of the new
records and comparing its root with the committed one: if they are equal there is nothing
to rotate to. A plan reports who is new and who is gone.
-/

import Vesting.Distribution.Build
import Vesting.Grant
import Vesting.Key

namespace Vesting

namespace Batch

/-- Append records, none of whose recipients may be listed already; `present` are the
recipients listed so far. -/
def appendFrom (present : List Recipient) : List Record → Except Refusal (List Record)
  | [] => .ok []
  | r :: rest =>
    if present.contains r.recipient then .error (.duplicateRecipient r.recipient.toHex)
    else (appendFrom (r.recipient :: present) rest).map (r :: ·)

/-- The records of a batch and further ones. -/
def add (records extra : List Record) : Except Refusal (List Record) :=
  (appendFrom (records.map (·.recipient)) extra).map (records ++ ·)

/-- Drop recipients, all of whom have to be listed. -/
def drop (records : List Record) (recipients : List Bytes) : Except Refusal (List Record) :=
  let present := records.map (·.recipient.bytes)
  match recipients.find? fun b => !present.contains b with
  | some absent => .error (.recipientNotFound (toHex absent))
  | none => .ok (records.filter fun r => !recipients.contains r.recipient.bytes)

/-- Drop named recipients. All names are read first. -/
def remove (records : List Record) (keys : List Key) : Except Failure (List Record) :=
  match keys.mapM Key.bytes? with
  | .error fault => .error (.notHex fault)
  | .ok recipients => (drop records recipients).mapError .refused

end Batch

/-- A planned rotation: the root that is left, the distribution of the new records, and
the recipients that only the new or only the old records have. -/
structure Amendment where
  oldRoot : Bytes
  distribution : Distribution
  added : List Recipient
  removed : List Recipient

namespace Amendment

/-- The recipients of some records that others do not have, in order. -/
def absentees (records others : List Record) : List Recipient :=
  let known := others.map (·.recipient)
  (records.map (·.recipient)).filter fun r => !known.contains r

/-- The amendment that leads to a distribution. The difference is reported only if the old
records are known. -/
def toward (currentRoot : Bytes) (d : Distribution) (new : List Record)
    (old : Option (List Record)) : Except Refusal Amendment :=
  if Grant.isNoop currentRoot d.root then .error (.duplicateRoot (toHex currentRoot))
  else match old with
    | none => .ok ⟨currentRoot, d, [], []⟩
    | some old => .ok ⟨currentRoot, d, absentees new old, absentees old new⟩

/-- Plan a rotation from a root to new records. -/
def plan (currentRoot : Bytes) (new : List Record) (version : UInt64)
    (old : Option (List Record)) : Except Refusal Amendment :=
  match Distribution.build new version with
  | .error refusal => .error refusal
  | .ok d => toward currentRoot d new old

/-- Plan a rotation under a version of free form. -/
def planAs (currentRoot : Bytes) (new : List Record) (version : Value)
    (old : Option (List Record)) : Except Failure Amendment :=
  match Distribution.buildAs new version with
  | .error failure => .error failure
  | .ok d => (toward currentRoot d new old).mapError .refused

/-- Plan a rotation from the root of the old records. -/
def planFrom (old new : List Record) (version : Value) : Except Failure Amendment :=
  match Distribution.buildAs old version with
  | .error failure => .error failure
  | .ok d => planAs d.root new version (some old)

def summary (a : Amendment) : Fields := [
  ("old_root", .text (toHex a.oldRoot)),
  ("new_root", .text (toHex a.distribution.root)),
  ("version", Record.ofWord a.distribution.version),
  ("max_claim_amount", Record.ofWord a.distribution.maxClaim),
  ("max_escrow", Record.ofWord a.distribution.maxEscrows),
  ("added", .texts (a.added.map (·.toHex))),
  ("removed", .texts (a.removed.map (·.toHex)))]

end Amendment

end Vesting
