/-
# Writing JSON

The same value is written in two ways. Stored text keeps every character that JSON
allows and has no place for numbers that are not finite; reports are ASCII only and
name such numbers. Either can be compact or indented by two spaces a level, and an
empty list or object stays on one line.
-/

import Vesting.Binary64.Shortest
import Vesting.Text.HexDigit
import Vesting.Text.Utf8
import Vesting.Value

namespace Vesting.Json

/-- How a value is written. -/
structure Style where
  /-- One item a line, two spaces a level. -/
  indented : Bool
  /-- Escape every character outside of printable ASCII. -/
  asciiOnly : Bool
  /-- Name the numbers that are not finite; otherwise they are null. -/
  namesNonFinite : Bool
  /-- The layout of finite numbers. -/
  numbers : Binary64.Style

def Style.stored : Style := ⟨false, false, false, .stored⟩

def Style.file : Style := ⟨true, false, false, .stored⟩

def Style.report : Style := ⟨true, true, true, .report⟩

def unitEscape (unit : Nat) : List Char := '\\' :: 'u' :: Text.hexDigits 4 unit

/-- A character as escapes of its UTF-16 units. -/
def codeEscape (c : Char) : List Char :=
  let n := c.toNat
  if n < 0x10000 then unitEscape n
  else unitEscape (0xd800 + (n - 0x10000) / 1024) ++ unitEscape (0xdc00 + (n - 0x10000) % 1024)

def escape (style : Style) (c : Char) : List Char :=
  if c == '"' then ['\\', '"']
  else if c == '\\' then ['\\', '\\']
  else if c == '\n' then ['\\', 'n']
  else if c == '\r' then ['\\', 'r']
  else if c == '\t' then ['\\', 't']
  else if c.toNat == 8 then ['\\', 'b']
  else if c.toNat == 12 then ['\\', 'f']
  else if c.toNat < 32 || (style.asciiOnly && 127 ≤ c.toNat) then codeEscape c
  else [c]

def writeText (style : Style) (s : String) : List Char :=
  '"' :: s.toList.flatMap (escape style) ++ ['"']

def writeInt (n : Int) : List Char :=
  if n < 0 then '-' :: Nat.toDigits 10 n.natAbs else Nat.toDigits 10 n.natAbs

def writeFloat (style : Style) : Binary64 → List Char
  | .finite negative significand exponent =>
    Binary64.finiteText style.numbers negative significand exponent
  | .nan => if style.namesNonFinite then "NaN".toList else "null".toList
  | .infinity negative =>
    if !style.namesNonFinite then "null".toList
    else if negative then "-Infinity".toList else "Infinity".toList

/-- The start of a line at a level. -/
def lineBreak (style : Style) (level : Nat) : List Char :=
  if style.indented then '\n' :: List.replicate (2 * level) ' ' else []

/-- What stands between a key and its value. -/
def colon (style : Style) : List Char := if style.indented then [':', ' '] else [':']

/-- Items between brackets: each on a line of its own where the style is indented. -/
def enclose (style : Style) (level : Nat) (opening closing : Char) (items : List (List Char)) :
    List Char :=
  match items with
  | [] => [opening, closing]
  | first :: rest =>
    let separated := rest.flatMap fun item => ',' :: lineBreak style (level + 1) ++ item
    opening :: lineBreak style (level + 1) ++ first ++ separated ++
      lineBreak style level ++ [closing]

mutual

/-- A value at a level of nesting. Bytes are written as the text they spell. -/
def write (style : Style) (level : Nat) : Value → List Char
  | .null => "null".toList
  | .bool b => if b then "true".toList else "false".toList
  | .int n => writeInt n
  | .float x => writeFloat style x
  | .text s => writeText style s
  | .bytes b => writeText style (String.ofList (Text.utf8Prefix b).1)
  | .list items => enclose style level '[' ']' (writeItems style (level + 1) items)
  | .object fields => enclose style level '\x7b' '\x7d' (writeFields style (level + 1) fields)

def writeItems (style : Style) (level : Nat) : List Value → List (List Char)
  | [] => []
  | item :: rest => write style level item :: writeItems style level rest

def writeFields (style : Style) (level : Nat) : List (String × Value) → List (List Char)
  | [] => []
  | (key, value) :: rest =>
    (writeText style key ++ colon style ++ write style level value)
      :: writeFields style level rest

end

end Json

def Value.toJson (v : Value) (style : Json.Style) : String := String.ofList (Json.write style 0 v)

end Vesting
