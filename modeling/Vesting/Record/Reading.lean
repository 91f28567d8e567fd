/-
# Reading records

A record is read from named fields. The recipient is given in its `0x` form or as bytes
and has to have the right size; times, frequency and recipient are mandatory, amounts
and modes are zero when left out, and no other field is allowed.
-/

import Vesting.Json.Parser
import Vesting.Record
import Vesting.Schema.Reading

namespace Vesting

namespace Schema

/-- A byte string, given as such or as text in a form that `ofText` reads. -/
def bytesFrom (ofText : String → Except Hex.Fault Bytes) (v : Value) : Reading Bytes :=
  match v with
  | .text s =>
    match ofText s with
    | .ok b => .done b
    | .error fault => .issue (.refused fault.message) v
  | .bytes b => .done b
  | _ => .issue .notBytes v

def recipient (v : Value) : Reading Recipient :=
  (bytesFrom ofHex v).andThen fun b =>
    if size : b.length = 32 then .done ⟨b, size⟩
    else .issue (.refused s!"recipient must be 32 bytes, got {b.length}") v

end Schema

namespace Record

/-- The name of a record in messages about its fields. -/
def model : String := "VestingRecord"

/-- Read the nine fields of a record; others are not looked at. -/
def readFields (fields : Fields) : Reading Record :=
  Record.mk <$> Schema.required fields "recipient" Schema.recipient
    <*> Schema.required fields "vesting_start_time" Schema.word
    <*> Schema.required fields "cliff_time" Schema.word
    <*> Schema.required fields "frequency" Schema.word
    <*> Schema.optional fields "cliff_unlock_amount" 0 Schema.word
    <*> Schema.optional fields "amount_per_period" 0 Schema.word
    <*> Schema.optional fields "number_of_period" 0 Schema.word
    <*> Schema.optional fields "update_recipient_mode" 0 Schema.byte
    <*> Schema.optional fields "cancel_mode" 0 Schema.byte

def read (fields : Fields) : Reading Record := readFields fields <* Schema.only fields columns

/-- Read a record, or reject its fields. -/
def ofFields (fields : Fields) : Except Rejection Record := (read fields).toExcept model

def ofJson (text : String) : Except Rejection Record :=
  match Value.ofJson? text with
  | none => .error ⟨model, [⟨.notJson, [], .text text⟩]⟩
  | some v => ((Schema.fieldsOf model .jsonText v).andThen read).toExcept model

end Record

end Vesting
