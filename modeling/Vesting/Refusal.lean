/-
# Refusals

Every operation of the library that can be refused says so with a refusal: which kind it
is, its message, and details for programs to read. Each kind has a stable code; two kinds
carry a code of their own. Details are shown with the part of the refusal that they
repeat written last, in place of a detail of the same name.
-/

import Vesting.Value

namespace Vesting

/-- Why an operation was refused. -/
inductive Refusal
  /-- Refused for a reason that has no kind of its own. -/
  | general (message code : String) (details : Fields)
  /-- A record breaks an invariant. -/
  | invalidRecord (message : String) (index : Option Int) (field : Option String)
      (details : Fields)
  /-- There is nothing to commit to. -/
  | emptyInput (message : String)
  /-- A parameter is out of range. -/
  | invalidParams (message : String) (details : Fields)
  /-- A recipient is listed twice. -/
  | duplicateRecipient (recipient : String)
  /-- A recipient is not listed. -/
  | recipientNotFound (recipient : String)
  /-- An amount leaves the range of unsigned words of sixty-four bits. -/
  | mathOverflow (message : String) (details : Fields)
  /-- A proof does not lead to the committed root. -/
  | proofRejected (message : String) (recipient : Option String) (details : Fields)
  /-- A distribution contradicts itself. -/
  | inconsistentTree (message : String) (details : Fields)
  /-- A file is missing or malformed. -/
  | unreadableFile (message : String) (path : Option String) (details : Fields)
  /-- A rotation would not change the root. -/
  | duplicateRoot (root : String)
  /-- The signer may not do this. -/
  | notPermitted (message : String) (details : Fields)
  /-- The grant is cancelled. -/
  | alreadyCancelled (message : String)
  /-- A funding call would move nothing. -/
  | amountIsZero (message : String)
  /-- The recipient has claimed before. -/
  | alreadyClaimed (recipient : String)
  /-- A ceiling of the grant would be exceeded. -/
  | limitReached (message code : String) (details : Fields)

namespace Refusal

def codes : List String := [
  "RECORD_VALIDATION_ERROR", "EMPTY_INPUT", "INVALID_PARAMS", "DUPLICATE_RECIPIENT",
  "RECIPIENT_NOT_FOUND", "MATH_OVERFLOW", "MERKLE_PROOF_INVALID", "TREE_VALIDATION_ERROR",
  "TREE_FILE_ERROR", "DUPLICATE_ROOT", "NOT_PERMITTED", "ALREADY_CANCELLED", "AMOUNT_IS_ZERO",
  "ESCROW_ALREADY_CREATED", "ESCROW_LIMIT_REACHED", "CLAIM_CEILING_EXCEEDED",
  "INSUFFICIENT_FUNDS"]

/-- The code of a refusal that was given none. -/
def generalCode : String := "ROOTLOCK_ERROR"

def code : Refusal → String
  | general _ code _ => code
  | invalidRecord .. => "RECORD_VALIDATION_ERROR"
  | emptyInput .. => "EMPTY_INPUT"
  | invalidParams .. => "INVALID_PARAMS"
  | duplicateRecipient .. => "DUPLICATE_RECIPIENT"
  | recipientNotFound .. => "RECIPIENT_NOT_FOUND"
  | mathOverflow .. => "MATH_OVERFLOW"
  | proofRejected .. => "MERKLE_PROOF_INVALID"
  | inconsistentTree .. => "TREE_VALIDATION_ERROR"
  | unreadableFile .. => "TREE_FILE_ERROR"
  | duplicateRoot .. => "DUPLICATE_ROOT"
  | notPermitted .. => "NOT_PERMITTED"
  | alreadyCancelled .. => "ALREADY_CANCELLED"
  | amountIsZero .. => "AMOUNT_IS_ZERO"
  | alreadyClaimed .. => "ESCROW_ALREADY_CREATED"
  | limitReached _ code _ => code

def message : Refusal → String
  | general message _ _ => message
  | invalidRecord message _ _ _ => message
  | emptyInput message => message
  | invalidParams message _ => message
  | duplicateRecipient recipient => s!"Duplicate recipient {recipient}"
  | recipientNotFound recipient => s!"Recipient {recipient} not found in tree"
  | mathOverflow message _ => message
  | proofRejected message _ _ => message
  | inconsistentTree message _ => message
  | unreadableFile message _ _ => message
  | duplicateRoot root => s!"New root {root} is identical to the current root"
  | notPermitted message _ => message
  | alreadyCancelled message => message
  | amountIsZero message => message
  | alreadyClaimed recipient => s!"Escrow already created for recipient {recipient}"
  | limitReached message _ _ => message

/-- Put a text behind the details, unless it is absent or empty. -/
def withText (details : Fields) (key : String) : Option String → Fields
  | none => details
  | some s => if s.isEmpty then details else details.put key (.text s)

def details : Refusal → Fields
  | general _ _ details => details
  | invalidRecord _ index field details =>
    let indexed := match index with
      | none => details
      | some i => details.put "record_index" (.int i)
    withText indexed "field_path" field
  | emptyInput _ => []
  | invalidParams _ details => details
  | duplicateRecipient recipient => [("recipient", .text recipient)]
  | recipientNotFound recipient => [("recipient", .text recipient)]
  | mathOverflow _ details => details
  | proofRejected _ recipient details => withText details "recipient" recipient
  | inconsistentTree _ details => details
  | unreadableFile _ path details => withText details "path" path
  | duplicateRoot root => [("root", .text root)]
  | notPermitted _ details => details
  | alreadyCancelled _ => []
  | amountIsZero _ => []
  | alreadyClaimed recipient => [("recipient", .text recipient)]
  | limitReached _ _ details => details

/-- The message for a batch without records. -/
def emptyMessage : String := "Cannot build a Merkle tree from zero records"

/-- The message for an amount out of range. -/
def overflowMessage : String := "Math operation overflow"

/-- The message for a signer without the right to act. -/
def notPermittedMessage : String := "Not permit to do this action"

/-- The message for a grant that is cancelled. -/
def cancelledMessage : String := "Already cancelled"

/-- The message for a funding call that would move nothing. -/
def zeroMessage : String := "Amount is zero"

/-- The message for a proof that leads to another root. -/
def proofMessage : String := "Invalid merkle proof"

end Refusal

end Vesting
