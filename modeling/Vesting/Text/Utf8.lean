/-
# UTF-8 text

Files are read as UTF-8. A reader takes one character at a time off the front of
the bytes; where no character can be read it names the fault: a byte that starts
no character, a byte that does not continue one, or an end in the middle of one.
The fault covers the bytes of the character that were still well formed.

Where a file is read in parts, a character may be cut in two: its first bytes wait for the
next part, and they are told to be wrong only when no part follows.
-/

import Vesting.Bytes
import Vesting.Text.HexDigit

namespace Vesting.Text

/-- What is wrong with bytes that are not UTF-8. -/
inductive Utf8Flaw
  | invalidStart
  | invalidContinuation
  | unexpectedEnd
  deriving DecidableEq

/-- A place where bytes stop being UTF-8: the first byte, its position, how many
bytes the fault covers, and what is wrong with them. -/
structure Utf8Fault where
  byte : UInt8
  position : Nat
  length : Nat
  flaw : Utf8Flaw
  deriving DecidableEq

def Utf8Flaw.text : Utf8Flaw → String
  | .invalidStart => "invalid start byte"
  | .invalidContinuation => "invalid continuation byte"
  | .unexpectedEnd => "unexpected end of data"

/-- The message of a fault: one byte is named by value, several by their range. -/
def Utf8Fault.message (f : Utf8Fault) : String :=
  if f.length ≤ 1 then
    "'utf-8' codec can't decode byte 0x" ++ String.ofList (hexDigits 2 f.byte.toNat) ++
      s!" in position {f.position}: " ++ f.flaw.text
  else
    s!"'utf-8' codec can't decode bytes in position {f.position}-{f.position + f.length - 1}: " ++
      f.flaw.text

/-- A continuation byte between the given bounds. -/
def continues (low high b : UInt8) : Bool := low ≤ b && b ≤ high

/-- The six payload bits of a continuation byte. -/
def payload (b : UInt8) : Nat := b.toNat % 64

/-- The result of looking at the front of some bytes. -/
inductive Utf8Step
  | finished
  | read (c : Char) (width : Nat)
  | faulty (length : Nat) (flaw : Utf8Flaw)

/-- The bounds of the second byte after a first byte of a longer character: they
exclude spellings that are too long, surrogates, and values above U+10FFFF. -/
def secondBounds (b : UInt8) : UInt8 × UInt8 :=
  if b == 0xe0 then (0xa0, 0xbf)
  else if b == 0xed then (0x80, 0x9f)
  else if b == 0xf0 then (0x90, 0xbf)
  else if b == 0xf4 then (0x80, 0x8f)
  else (0x80, 0xbf)

/-- Look at the front of some bytes. -/
def utf8Step : Bytes → Utf8Step
  | [] => .finished
  | a :: rest =>
    if a < 0x80 then .read (Char.ofNat a.toNat) 1
    else if a < 0xc2 || 0xf4 < a then .faulty 1 .invalidStart
    else
      let (low, high) := secondBounds a
      match rest with
      | [] => .faulty 1 .unexpectedEnd
      | b :: rest =>
        if !continues low high b then .faulty 1 .invalidContinuation
        else if a < 0xe0 then .read (Char.ofNat (a.toNat % 32 * 64 + payload b)) 2
        else match rest with
          | [] => .faulty 2 .unexpectedEnd
          | c :: rest =>
            if !continues 0x80 0xbf c then .faulty 2 .invalidContinuation
            else if a < 0xf0 then
              .read (Char.ofNat ((a.toNat % 16 * 64 + payload b) * 64 + payload c)) 3
            else match rest with
              | [] => .faulty 3 .unexpectedEnd
              | d :: _ =>
                if !continues 0x80 0xbf d then .faulty 3 .invalidContinuation
                else
                  let high := (a.toNat % 8 * 64 + payload b) * 64 + payload c
                  .read (Char.ofNat (high * 64 + payload d)) 4

/-- Read characters until the bytes end or a fault is met. The fuel is the number of
bytes, of which every character takes at least one; `position` counts those already
taken and `read` holds the characters read, latest first. -/
def utf8Loop : Nat → Nat → List Char → Bytes → List Char × Option Utf8Fault
  | 0, _, read, _ => (read.reverse, none)
  | fuel + 1, position, read, bytes =>
    match utf8Step bytes with
    | .finished => (read.reverse, none)
    | .read c width => utf8Loop fuel (position + width) (c :: read) (bytes.drop width)
    | .faulty length flaw =>
      (read.reverse, some ⟨bytes.headD 0, position, length, flaw⟩)

/-- The characters before the first fault, and that fault. -/
def utf8Prefix (bytes : Bytes) : List Char × Option Utf8Fault :=
  utf8Loop bytes.length 0 [] bytes

/-- The longest beginning of a text with at most `size` bytes. -/
def takeBytes : Nat → List Char → List Char
  | _, [] => []
  | size, c :: rest =>
    if c.utf8Size ≤ size then c :: takeBytes (size - c.utf8Size) rest else []

/-- Whether the bytes that are left where a flaw shows may still begin a character, so that
nothing is told before more bytes are read. The first two bytes of a surrogate are kept
waiting as well, although no third one makes a character of them. -/
def Utf8Flaw.isOpen (left : Bytes) (flaw : Utf8Flaw) : Bool :=
  flaw == .unexpectedEnd ||
    match left with
    | [a, b] => a == 0xed && continues 0xa0 0xbf b
    | _ => false

/-- Read bytes part by part, behind bytes that wait for the rest of their character. The
result is the characters of all parts that are read before a fault is told, and that fault,
whose position counts from the first waiting byte. A part with a fault gives no characters. -/
def utf8Feed (waiting : Bytes) : List Bytes → List Char × Option Utf8Fault
  | [] => utf8Prefix waiting
  | part :: parts =>
    match utf8Prefix (waiting ++ part) with
    | (cs, none) => (utf8Feed [] parts).map (cs ++ ·) id
    | (cs, some fault) =>
      let left := (waiting ++ part).drop fault.position
      if fault.flaw.isOpen left then (utf8Feed left parts).map (cs ++ ·) id else ([], some fault)

/-- Bytes cut into parts of a size, of which the last may be smaller. -/
def cut (size : Nat) (bytes : Bytes) : List Bytes :=
  if size = 0 ∨ bytes.length ≤ size then [bytes]
  else bytes.take size :: cut size (bytes.drop size)
termination_by bytes.length
decreasing_by simp only [List.length_drop]; omega

/-- Read bytes in parts of a size. -/
def utf8Parts (size : Nat) (bytes : Bytes) : List Char × Option Utf8Fault :=
  utf8Feed [] (cut size bytes)

def ofUtf8 (bytes : Bytes) : Except Utf8Fault String :=
  match utf8Prefix bytes with
  | (cs, none) => .ok (String.ofList cs)
  | (_, some fault) => .error fault

def toUtf8 (s : String) : Bytes := s.toUTF8.toList

end Vesting.Text
