/-
# Free-form values

Files, settings and the details of an error hold values whose shape is not known in
advance. An object keeps its fields in the order in which they were first given.
-/

import Vesting.Binary64
import Vesting.Bytes

namespace Vesting

/-- A value of free form. -/
inductive Value
  | null
  | bool (b : Bool)
  | int (n : Int)
  | float (x : Binary64)
  | text (s : String)
  | bytes (b : Bytes)
  | list (items : List Value)
  | object (fields : List (String × Value))
  deriving Inhabited

abbrev Fields := List (String × Value)

namespace Fields

def get? (fields : Fields) (key : String) : Option Value :=
  (fields.find? (·.1 == key)).map (·.2)

def has (fields : Fields) (key : String) : Bool := fields.any (·.1 == key)

/-- Give a field a value: in its place if it is present, at the end otherwise. -/
def put (fields : Fields) (key : String) (value : Value) : Fields :=
  if fields.has key then
    fields.map fun field => if field.1 == key then (key, value) else field
  else fields ++ [(key, value)]

/-- Objects given field by field; of a repeated field the last value counts. -/
def ofPairs (pairs : List (String × Value)) : Fields :=
  pairs.foldl (fun fields pair => put fields pair.1 pair.2) []

end Fields

namespace Value

def ofText? : Option String → Value
  | none => .null
  | some s => .text s

def texts (items : List String) : Value := .list (items.map .text)

/-- The values that count as absent where a default exists: nothing, no, zero, and
whatever is empty. -/
def isBlank : Value → Bool
  | .null => true
  | .bool b => !b
  | .int n => n == 0
  | .float (.finite _ significand _) => significand == 0
  | .float _ => false
  | .text s => s.isEmpty
  | .bytes b => b.isEmpty
  | .list items => items.isEmpty
  | .object fields => fields.isEmpty

end Value

end Vesting
