/-
# Reading JSON

A strict reader: no comments, no trailing commas, no leading zeros, and nothing but
white space around the value. Numbers that are not finite may be named. A number with
a point or an exponent is a floating-point number, every other is a whole number, which
may not be longer than 4300 characters. Of a repeated key the last value counts, and at
most 200 lists and objects may be open around an item.
-/

import Vesting.Text.HexDigit
import Vesting.Value

namespace Vesting.Json

/-- The most characters of a whole number. -/
def longestInteger : Nat := 4300

/-- The most lists and objects open around an item. -/
def deepestNesting : Nat := 200

def isSpace (c : Char) : Bool := c == ' ' || c == '\n' || c == '\r' || c == '\t'

def skipSpace (cs : List Char) : List Char := cs.dropWhile isSpace

def isDigit (c : Char) : Bool := '0' ≤ c && c ≤ '9'

/-- The number that ASCII digits stand for. -/
def digitsToNat (digits : List Char) : Nat :=
  digits.foldl (fun n c => 10 * n + (c.toNat - 48)) 0

def readUnit : List Char → Option (Nat × List Char)
  | a :: b :: c :: d :: rest => do
    let a ← Text.hexValue? a
    let b ← Text.hexValue? b
    let c ← Text.hexValue? c
    let d ← Text.hexValue? d
    some (((a * 16 + b) * 16 + c) * 16 + d, rest)
  | _ => none

/-- The character of an escape whose backslash and letter `u` have been read. A high
surrogate has to be followed by the escape of a low one, and no other may stand alone. -/
def readCodeEscape (cs : List Char) : Option (Char × List Char) :=
  match readUnit cs with
  | none => none
  | some (unit, rest) =>
    if unit < 0xd800 || 0xdfff < unit then some (Char.ofNat unit, rest)
    else if 0xdbff < unit then none
    else match rest with
      | '\\' :: 'u' :: rest =>
        match readUnit rest with
        | some (low, rest) =>
          if 0xdc00 ≤ low && low ≤ 0xdfff then
            some (Char.ofNat (0x10000 + (unit - 0xd800) * 1024 + (low - 0xdc00)), rest)
          else none
        | none => none
      | _ => none

def shortEscape? (c : Char) : Option Char :=
  match c with
  | '"' => some '"'
  | '\\' => some '\\'
  | '/' => some '/'
  | 'b' => some (Char.ofNat 8)
  | 'f' => some (Char.ofNat 12)
  | 'n' => some '\n'
  | 'r' => some '\r'
  | 't' => some '\t'
  | _ => none

/-- Split off a string at its closing quote, the opening one having been read. What is
behind a backslash ends no string; `read` holds the characters so far, latest first. -/
def splitString : List Char → List Char → Option (List Char × List Char)
  | read, '"' :: rest => some (read.reverse, rest)
  | read, '\\' :: c :: rest => splitString (c :: '\\' :: read) rest
  | read, c :: rest => splitString (c :: read) rest
  | _, [] => none

/-- Replace the escapes of a string. The fuel is its number of characters; `read` holds
the characters so far, latest first. -/
def unescape : Nat → List Char → List Char → Option (List Char)
  | 0, read, cs => if cs.isEmpty then some read.reverse else none
  | fuel + 1, read, cs =>
    match cs with
    | [] => some read.reverse
    | '\\' :: 'u' :: rest =>
      match readCodeEscape rest with
      | some (c, rest) => unescape fuel (c :: read) rest
      | none => none
    | '\\' :: c :: rest =>
      match shortEscape? c with
      | some c => unescape fuel (c :: read) rest
      | none => none
    | c :: rest => if c.toNat < 32 || c == '\\' then none else unescape fuel (c :: read) rest

/-- The rest of a string whose opening quote has been read. -/
def readString (cs : List Char) : Option (String × List Char) :=
  match splitString [] cs with
  | none => none
  | some (raw, rest) => (unescape raw.length [] raw).map fun cs => (String.ofList cs, rest)

/-- The digits behind a point: at least one. -/
def readFraction (cs : List Char) : Option (List Char × List Char) :=
  match cs with
  | '.' :: rest =>
    let digits := rest.takeWhile isDigit
    if digits.isEmpty then none else some (digits, rest.dropWhile isDigit)
  | _ => some ([], cs)

/-- An exponent: a sign or none, and at least one digit. -/
def readExponent (cs : List Char) : Option (Option Int × List Char) :=
  match cs with
  | e :: rest =>
    if e == 'e' || e == 'E' then
      let (negative, rest) := match rest with
        | '-' :: rest => (true, rest)
        | '+' :: rest => (false, rest)
        | _ => (false, rest)
      let digits := rest.takeWhile isDigit
      if digits.isEmpty then none
      else
        let size : Int := digitsToNat digits
        some (some (if negative then -size else size), rest.dropWhile isDigit)
    else some (none, cs)
  | [] => some (none, cs)

/-- A number whose sign has been read. -/
def readNumber (negative : Bool) (cs : List Char) : Option (Value × List Char) :=
  let digits := cs.takeWhile isDigit
  let rest := cs.dropWhile isDigit
  if digits.isEmpty || (digits.length > 1 && digits.head? == some '0') then none
  else match readFraction rest with
    | none => none
    | some (fraction, rest) =>
      match readExponent rest with
      | none => none
      | some (exponent, rest) =>
        if fraction.isEmpty && exponent.isNone then
          let size := digits.length + if negative then 1 else 0
          if longestInteger < size then none
          else
            let n : Int := digitsToNat digits
            some (.int (if negative then -n else n), rest)
        else
          let power := exponent.getD 0 - fraction.length
          some (.float (.ofDecimal negative (digitsToNat (digits ++ fraction)) power), rest)

def readWord (word : String) (value : Value) (cs : List Char) : Option (Value × List Char) :=
  if word.toList.isPrefixOf cs then some (value, cs.drop word.length) else none

def readScalar (cs : List Char) : Option (Value × List Char) :=
  match cs with
  | '"' :: rest => (readString rest).map fun (s, rest) => (.text s, rest)
  | 't' :: _ => readWord "true" (.bool true) cs
  | 'f' :: _ => readWord "false" (.bool false) cs
  | 'n' :: _ => readWord "null" .null cs
  | 'N' :: _ => readWord "NaN" (.float .nan) cs
  | 'I' :: _ => readWord "Infinity" (.float (.infinity false)) cs
  | '-' :: 'I' :: _ => readWord "-Infinity" (.float (.infinity true)) cs
  | '-' :: rest => readNumber true rest
  | _ => readNumber false cs

mutual

/-- A value after white space; `levels` more lists and objects may be opened around an
item. The fuel is at least twice the number of characters left. -/
def readValue : Nat → Nat → List Char → Option (Value × List Char)
  | 0, _, _ => none
  | fuel + 1, levels, cs =>
    match skipSpace cs with
    | '[' :: rest =>
      match skipSpace rest with
      | ']' :: rest => some (.list [], rest)
      | rest =>
        if levels == 0 then none
        else match readItems fuel (levels - 1) [] rest with
          | some (items, rest) => some (.list items, rest)
          | none => none
    | '\x7b' :: rest =>
      match skipSpace rest with
      | '\x7d' :: rest => some (.object [], rest)
      | rest =>
        if levels == 0 then none
        else match readFields fuel (levels - 1) [] rest with
          | some (pairs, rest) => some (.object (Fields.ofPairs pairs), rest)
          | none => none
    | cs => readScalar cs

/-- The items of a list up to its bracket; `read` holds those read, latest first. -/
def readItems : Nat → Nat → List Value → List Char → Option (List Value × List Char)
  | 0, _, _, _ => none
  | fuel + 1, levels, read, cs =>
    match readValue fuel levels cs with
    | none => none
    | some (item, rest) =>
      match skipSpace rest with
      | ',' :: rest => readItems fuel levels (item :: read) rest
      | ']' :: rest => some ((item :: read).reverse, rest)
      | _ => none

/-- The fields of an object up to its brace; `read` holds those read, latest first. -/
def readFields : Nat → Nat → List (String × Value) → List Char →
    Option (List (String × Value) × List Char)
  | 0, _, _, _ => none
  | fuel + 1, levels, read, cs =>
    match skipSpace cs with
    | '"' :: rest =>
      match readString rest with
      | none => none
      | some (key, rest) =>
        match skipSpace rest with
        | ':' :: rest =>
          match readValue fuel levels rest with
          | none => none
          | some (value, rest) =>
            match skipSpace rest with
            | ',' :: rest => readFields fuel levels ((key, value) :: read) rest
            | '\x7d' :: rest => some (((key, value) :: read).reverse, rest)
            | _ => none
        | _ => none
    | _ => none

end

end Json

def Value.ofJson? (s : String) : Option Value :=
  let cs := s.toList
  match Json.readValue (2 * cs.length + 2) Json.deepestNesting cs with
  | some (value, rest) => if (Json.skipSpace rest).isEmpty then some value else none
  | none => none

end Vesting
