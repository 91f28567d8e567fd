/-
# Sample records

Random records for trying things out. What is drawn for a record makes it valid: the cliff
comes after the start, the frequency is positive, and the record entitles to something. The
same seed gives the same records, and fewer records are the first of more.
-/

import Vesting.Record.Reading
import Vesting.Twister

namespace Vesting.Sample

/-- What is drawn for one record. -/
structure Draws where
  start : Nat
  recipient : Bytes
  /-- How long after the start the cliff is. -/
  delay : Nat
  frequency : Nat
  cliffAmount : Nat
  periodAmount : Nat
  periods : Nat
  updateMode : Nat
  cancelMode : Nat

/-- Draw what a record needs, in the order in which it is drawn. -/
def draws (t : Twister) : Draws × Twister :=
  let (start, t) := t.range 0 1000
  let (recipient, t) := t.wide 8
  let (delay, t) := t.range 1 1000
  let (frequency, t) := t.range 1 100
  let (cliffAmount, t) := t.range 0 1000
  let (periodAmount, t) := t.range 1 1000
  let (periods, t) := t.range 1 1000
  let (updateMode, t) := t.range 0 4
  let (cancelMode, t) := t.range 0 4
  ({ start, recipient := Bytes.littleEndian 32 recipient, delay, frequency, cliffAmount,
     periodAmount, periods, updateMode, cancelMode }, t)

/-- The fields of the record that is made of what has been drawn. -/
def Draws.fields (d : Draws) : Fields := [
  ("recipient", .bytes d.recipient),
  ("vesting_start_time", .int d.start),
  ("cliff_time", .int (d.start + d.delay)),
  ("frequency", .int d.frequency),
  ("cliff_unlock_amount", .int d.cliffAmount),
  ("amount_per_period", .int d.periodAmount),
  ("number_of_period", .int d.periods),
  ("update_recipient_mode", .int d.updateMode),
  ("cancel_mode", .int d.cancelMode)]

/-- Records made of one draw after the other. Fields that form no record end it. -/
def draw : Nat → Twister → Except Rejection (List Record)
  | 0, _ => .ok []
  | count + 1, t => do
    let (d, t) := draws t
    let r ← Record.ofFields d.fields
    return r :: (← draw count t)

/-- Sample records for a seed; a count below zero gives none. -/
def records (count seed : Int) : Except Rejection (List Record) :=
  draw count.toNat (.ofSeed seed)

end Vesting.Sample
