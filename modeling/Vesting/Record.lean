/-
# Vesting records

A record entitles one recipient to an amount that is released over time: part of it at
the cliff, the rest in equal periods. It is committed to through its canonical encoding
of eighty-two bytes. Encoding and totals are defined for every record; whether a record
makes sense as a grant (the cliff after the start, a frequency above zero) is a question
of its own.
-/

import Vesting.Hex
import Vesting.Report

namespace Vesting

/-- The account that a record entitles. -/
structure Recipient where
  bytes : Bytes
  size : bytes.length = 32
  deriving DecidableEq

def Recipient.toHex (r : Recipient) : String := Vesting.toHex r.bytes

theorem Recipient.eq_of_bytes_eq {r s : Recipient} (same : r.bytes = s.bytes) : r = s := by
  cases r
  cases s
  cases same
  rfl

/-- What one recipient is entitled to. The mode bytes say who may later change the
recipient or cancel; they are kept and hashed as given, known or not. -/
structure Record where
  recipient : Recipient
  start : UInt64
  cliff : UInt64
  frequency : UInt64
  cliffAmount : UInt64
  periodAmount : UInt64
  periods : UInt64
  updateMode : UInt8
  cancelMode : UInt8
  deriving DecidableEq

/-- The known meanings of a mode byte. -/
inductive Mode
  | neither
  | creator
  | recipient
  | either

namespace Mode

def all : List Mode := [neither, creator, recipient, either]

def byte : Mode → UInt8
  | neither => 0
  | creator => 1
  | recipient => 2
  | either => 3

def name : Mode → String
  | neither => "NEITHER_CREATOR_OR_RECIPIENT"
  | creator => "ONLY_CREATOR"
  | recipient => "ONLY_RECIPIENT"
  | either => "EITHER_CREATOR_AND_RECIPIENT"

end Mode

namespace Record

def wordMax : Nat := 0xffffffffffffffff

/-- The size of an encoded record in bytes. -/
def encodedSize : Nat := 82

/-- The names of a record's fields, in order. -/
def columns : List String := [
  "recipient", "vesting_start_time", "cliff_time", "frequency", "cliff_unlock_amount",
  "amount_per_period", "number_of_period", "update_recipient_mode", "cancel_mode"]

def ofWord (w : UInt64) : Value := .int w.toNat

def fields (r : Record) : Fields := [
  ("recipient", .text r.recipient.toHex),
  ("vesting_start_time", ofWord r.start),
  ("cliff_time", ofWord r.cliff),
  ("frequency", ofWord r.frequency),
  ("cliff_unlock_amount", ofWord r.cliffAmount),
  ("amount_per_period", ofWord r.periodAmount),
  ("number_of_period", ofWord r.periods),
  ("update_recipient_mode", .int r.updateMode.toNat),
  ("cancel_mode", .int r.cancelMode.toNat)]

/-- The canonical encoding: the recipient, six words and two bytes, all little-endian. -/
def encode (r : Record) : Bytes :=
  let word (w : UInt64) := Bytes.littleEndian 8 w.toNat
  r.recipient.bytes ++ word r.start ++ word r.cliff ++ word r.frequency ++
    word r.cliffAmount ++ word r.periodAmount ++ word r.periods ++ [r.updateMode, r.cancelMode]

/-- Every record has an encoding of the same size. -/
@[simp] theorem length_encode (r : Record) : r.encode.length = encodedSize := by
  simp [encode, encodedSize, r.recipient.size]

/-- The exact amount that a record entitles to, whatever its size. -/
def amount (r : Record) : Nat :=
  r.cliffAmount.toNat + r.periodAmount.toNat * r.periods.toNat

/-- A step of a total left the range of words. -/
def overflow (r : Record) (step : String) : Refusal :=
  .mathOverflow Refusal.overflowMessage
    [("recipient", .text r.recipient.toHex), ("step", .text step)]

/-- The amount that a record entitles to, refused if a step leaves the range of words. -/
def total (r : Record) : Except Refusal Nat :=
  let periodic := r.periodAmount.toNat * r.periods.toNat
  if wordMax < periodic then .error (r.overflow "amount_per_period * number_of_period")
  else
    let total := r.cliffAmount.toNat + periodic
    if wordMax < total then .error (r.overflow "cliff_unlock_amount + periodic")
    else .ok total

/-- A total is exact, and it is given exactly if it fits a word. -/
theorem total_eq_ok_iff (r : Record) (n : Nat) :
    r.total = .ok n ↔ n = r.amount ∧ r.amount ≤ wordMax := by
  unfold total amount
  grind

/-- The ways in which a record makes no sense as a grant. -/
inductive Violation
  | cliffNotAfterStart
  | zeroFrequency
  deriving DecidableEq

/-- What is wrong with a record, in order. -/
def violations (r : Record) : List Violation :=
  (if r.cliff ≤ r.start then [.cliffNotAfterStart] else []) ++
    (if r.frequency = 0 then [.zeroFrequency] else [])

namespace Violation

/-- The field that a violation is about. -/
def field : Violation → String
  | cliffNotAfterStart => "cliff_time"
  | zeroFrequency => "frequency"

def message (r : Record) : Violation → String
  | cliffNotAfterStart =>
    s!"vesting_start_time ({r.start.toNat}) must be before cliff_time ({r.cliff.toNat})"
  | zeroFrequency => "Frequency is zero"

def expected (r : Record) : Violation → String
  | cliffNotAfterStart => s!"> {r.start.toNat}"
  | zeroFrequency => "> 0"

def actual (r : Record) : Violation → String
  | cliffNotAfterStart => s!"{r.cliff.toNat}"
  | zeroFrequency => "0"

/-- The report about a violation; `index` is the place of the record in its batch. -/
def report (r : Record) (index : Option Int) (v : Violation) : Report where
  code := "RECORD_VALIDATION_ERROR"
  message := v.message r
  details := [("recipient", .text r.recipient.toHex)]
  facts := .record index (some v.field) (some (v.expected r)) (some (v.actual r))

end Violation

/-- The reports about all violations of a record. -/
def reports (r : Record) (index : Option Int) : List Report :=
  r.violations.map fun v => v.report r index

end Record

end Vesting
