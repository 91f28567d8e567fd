/-
# Whole numbers in text

Two ways of writing a whole number are read, both with white space around it, one sign,
leading zeros, and single underscores between digits. Fields of a record take ASCII
digits and may end in a point and zeros; the environment and the command line take the
digits of every script. Either refuses more than 4300 digits, of which a field does not
count leading zeros but does count a minus sign.
-/

import Vesting.Text.Blank
import Vesting.Text.DecimalDigit
import Vesting.Text.Quoted

namespace Vesting.Text

/-- Why a text is not read as a whole number. -/
inductive WholeFault
  | notNumber
  | tooLong (digits : Nat)
  deriving DecidableEq

/-- The most digits of a whole number. -/
def longestWhole : Nat := 4300

def asciiDigit? (c : Char) : Option Nat :=
  if '0' ≤ c && c ≤ '9' then some (c.toNat - 48) else none

/-- Further digits behind a digit, single underscores between them, and what follows. -/
def moreDigits (digit? : Char → Option Nat) : List Char → List Nat × List Char
  | [] => ([], [])
  | '_' :: c :: rest =>
    match digit? c with
    | some d => let (ds, rest) := moreDigits digit? rest; (d :: ds, rest)
    | none => ([], '_' :: c :: rest)
  | c :: rest =>
    match digit? c with
    | some d => let (ds, rest) := moreDigits digit? rest; (d :: ds, rest)
    | none => ([], c :: rest)

/-- The digits at the front of a text, single underscores between them, and what follows. -/
def splitDigits (digit? : Char → Option Nat) : List Char → List Nat × List Char
  | [] => ([], [])
  | c :: rest =>
    match digit? c with
    | some d => let (ds, rest) := moreDigits digit? rest; (d :: ds, rest)
    | none => ([], c :: rest)

/-- Split off a sign; true for minus. -/
def splitSign : List Char → Bool × List Char
  | '-' :: rest => (true, rest)
  | '+' :: rest => (false, rest)
  | cs => (false, cs)

/-- The number that digits stand for, most significant first. -/
def ofDigits (digits : List Nat) : Nat := digits.foldl (fun n d => 10 * n + d) 0

/-- The number that digits and a sign stand for. -/
def signed (negative : Bool) (digits : List Nat) : Int :=
  if negative then -(ofDigits digits : Int) else ofDigits digits

/-- A point and at least one zero. -/
def isZeroFraction : List Char → Bool
  | '.' :: zero :: zeros => (zero :: zeros).all (· == '0')
  | _ => false

/-- Read a whole number in a field: at most one sign, then ASCII digits with at most one
underscore between any two of them, then a point and zeros or nothing. Leading zeros are
digits like the others, so that no sign and no second underscore may follow them: `0-1` and
`0__1` are no numbers. -/
def readFieldNumber (s : String) : Except WholeFault Int :=
  let (negative, body) := splitSign (trim isWhiteSpace s.toList)
  let (digits, rest) := splitDigits asciiDigit? body
  let size := (digits.dropWhile (· == 0)).length + if negative then 1 else 0
  if digits.isEmpty then .error .notNumber
  else if longestWhole < size then .error (.tooLong size)
  else if rest.isEmpty || isZeroFraction rest then .ok (signed negative digits)
  else .error .notNumber

/-- Read a whole number of the environment or the command line. -/
def readNumber (s : String) : Except WholeFault Int :=
  let (negative, body) := splitSign (trim isWhiteSpace s.toList)
  let (digits, rest) := splitDigits digitValue? body
  if digits.isEmpty || rest.head? == some '_' then .error .notNumber
  else if longestWhole < digits.length then .error (.tooLong digits.length)
  else if rest.isEmpty then .ok (signed negative digits)
  else .error .notNumber

/-- The message for a text that is no number of the environment or the command line. It
shows at most 200 characters of the quoted text. -/
def WholeFault.message (text : String) : WholeFault → String
  | .notNumber =>
    "invalid literal for int() with base 10: " ++
      String.ofList ((quoted text).toList.take 200)
  | .tooLong digits =>
    s!"Exceeds the limit ({longestWhole} digits) for integer string conversion: " ++
      s!"value has {digits} digits; use sys.set_int_max_str_digits() to increase the limit"

end Vesting.Text
