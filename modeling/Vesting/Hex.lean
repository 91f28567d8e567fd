/-
# Hexadecimal byte strings

Roots, leaves and recipients are written as `0x` and two lower-case digits a byte.
The prefix is mandatory on the way back, so that a bare amount is never taken for a
key; digits of either case are read, and ASCII white space may stand between the
pairs of digits but not inside one. Main statement: what is written reads back.
-/

import Vesting.Bytes
import Vesting.Text.HexDigit
import Vesting.Text.Quoted

namespace Vesting

/-- The size of every hash in bytes. -/
def hashSize : Nat := 32

namespace Hex

/-- Why a text is not the hexadecimal form of a byte string. -/
inductive Fault
  | missingPrefix (text : String)
  | oddLength (digits : Nat)
  | invalidDigits (text : String)
  | wrongHashSize (size : Nat)
  deriving DecidableEq

/-- The part of a text that a message shows. -/
def shown (text : String) : String :=
  Text.quoted (String.ofList (text.toList.take 12))

def Fault.message : Fault → String
  | .missingPrefix text => "Expected 0x-prefixed hex, got " ++ shown text
  | .oddLength digits => s!"Hex string must have even length, got {digits} digits"
  | .invalidDigits text => "Invalid hex digits in " ++ shown text
  | .wrongHashSize size => s!"Expected a {hashSize}-byte hash, got {size} bytes"

/-- White space that may stand between two pairs of digits. -/
def isGap (c : Char) : Bool :=
  c == ' ' || (9 ≤ c.toNat && c.toNat ≤ 13)

def encode : Bytes → List Char
  | [] => []
  | b :: rest =>
    Text.hexDigit (b.toNat / 16) :: Text.hexDigit (b.toNat % 16) :: encode rest

/-- Read pairs of digits and skip the gaps between them. -/
def decode : List Char → Option Bytes
  | [] => some []
  | [c] => if isGap c then some [] else none
  | c :: d :: rest =>
    if isGap c then decode (d :: rest)
    else match Text.hexValue? c, Text.hexValue? d with
      | some high, some low => (decode rest).map (UInt8.ofNat (16 * high + low) :: ·)
      | _, _ => none

theorem isGap_hexDigit {n : Nat} (h : n < 16) : isGap (Text.hexDigit n) = false := by
  have all : ∀ k : Fin 16, isGap (Text.hexDigit k) = false := by decide
  exact all ⟨n, h⟩

theorem decode_encode (b : Bytes) : decode (encode b) = some b := by
  induction b with
  | nil => rfl
  | cons byte rest ih =>
    have bound : byte.toNat < 256 := byte.toNat_lt
    have high : byte.toNat / 16 < 16 := by omega
    have low : byte.toNat % 16 < 16 := by omega
    have whole : 16 * (byte.toNat / 16) + byte.toNat % 16 = byte.toNat := by omega
    simp [encode, decode, isGap_hexDigit high, Text.hexValue?_hexDigit high,
      Text.hexValue?_hexDigit low, ih, whole]

@[simp] theorem length_encode (b : Bytes) : (encode b).length = 2 * b.length := by
  induction b with
  | nil => rfl
  | cons byte rest ih => simp only [encode, List.length_cons, ih]; omega

end Hex

/-- The `0x` form of a byte string. -/
def toHex (b : Bytes) : String := String.ofList ('0' :: 'x' :: Hex.encode b)

/-- Read a byte string from its `0x` form. The number of characters behind the prefix,
gaps included, has to be even. -/
def ofHex (text : String) : Except Hex.Fault Bytes :=
  match text.toList with
  | '0' :: 'x' :: digits =>
    if digits.length % 2 ≠ 0 then .error (.oddLength digits.length)
    else match Hex.decode digits with
      | some b => .ok b
      | none => .error (.invalidDigits text)
  | _ => .error (.missingPrefix text)

/-- Read a single hash from its `0x` form. -/
def hashOfHex (text : String) : Except Hex.Fault Bytes :=
  match ofHex text with
  | .ok b => if b.length = hashSize then .ok b else .error (.wrongHashSize b.length)
  | .error fault => .error fault

@[simp] theorem ofHex_toHex (b : Bytes) : ofHex (toHex b) = .ok b := by
  simp [ofHex, toHex, Hex.decode_encode]

/-- A written hash reads back as a hash. -/
theorem hashOfHex_toHex {b : Bytes} (h : b.length = hashSize) : hashOfHex (toHex b) = .ok b := by
  simp [hashOfHex, h]

theorem toHex_inj {a b : Bytes} (h : toHex a = toHex b) : a = b := by
  have same : ofHex (toHex a) = ofHex (toHex b) := congrArg ofHex h
  simpa using same

end Vesting
