/-
# Values in messages

A message about a value shows it and names its type. Texts stand between quotes, bytes
between quotes behind a `b`, and a long form is cut in the middle: of more than fifty
bytes the first twenty-five and the last twenty-four are kept, and no character is cut.
-/

import Vesting.Binary64.Shortest
import Vesting.Text.Quoted
import Vesting.Text.Utf8
import Vesting.Value

namespace Vesting

namespace Text

/-- One byte of a byte string between quotes. -/
def escapeByte (quote : Char) (b : UInt8) : List Char :=
  let c := Char.ofNat b.toNat
  if c == '\\' || c == quote then ['\\', c]
  else if c == '\n' then ['\\', 'n']
  else if c == '\r' then ['\\', 'r']
  else if c == '\t' then ['\\', 't']
  else if 32 ≤ b && b < 127 then [c]
  else '\\' :: 'x' :: hexDigits 2 b.toNat

def quotedBytes (b : Bytes) : String :=
  let quote := quoteFor (b.map fun byte => Char.ofNat byte.toNat)
  String.ofList ('b' :: quote :: b.flatMap (escapeByte quote) ++ [quote])

/-- Cut a text of more than fifty bytes in the middle. -/
def abridge (s : String) : String :=
  if s.utf8ByteSize ≤ 50 then s
  else
    let first := takeBytes 25 s.toList
    let last := (takeBytes 24 s.toList.reverse).reverse
    String.ofList (first ++ ['.', '.', '.'] ++ last)

end Text

namespace Value

def typeName : Value → String
  | .null => "NoneType"
  | .bool _ => "bool"
  | .int _ => "int"
  | .float _ => "float"
  | .text _ => "str"
  | .bytes _ => "bytes"
  | .list _ => "list"
  | .object _ => "dict"

mutual

/-- A value as it is shown in messages. -/
def display : Value → String
  | .null => "None"
  | .bool b => if b then "True" else "False"
  | .int n => toString n
  | .float x => x.toText
  | .text s => Text.quoted s
  | .bytes b => Text.quotedBytes b
  | .list items => "[" ++ ", ".intercalate (displayItems items) ++ "]"
  | .object fields => "\x7b" ++ ", ".intercalate (displayFields fields) ++ "\x7d"

/-- The items of a list as they are shown. -/
def displayItems : List Value → List String
  | [] => []
  | item :: rest => display item :: displayItems rest

/-- The fields of an object as they are shown. -/
def displayFields : List (String × Value) → List String
  | [] => []
  | (key, value) :: rest => (Text.quoted key ++ ": " ++ display value) :: displayFields rest

end

/-- A value as it is printed: a text as it stands, others as they are shown. -/
def plainText : Value → String
  | .text s => s
  | v => display v

end Value

end Vesting
