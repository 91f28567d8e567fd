/-
# The shortest decimal text of a floating-point number

A finite number is written with the fewest significant digits that read back as the
same number, and of those the nearest. For each number of digits only the two points
of the decimal grid around the number have to be tried. Numbers of middling size are
written in positional notation, all others with an exponent; where the border lies and
how an exponent looks is a matter of style.
-/

import Vesting.Binary64

namespace Vesting.Binary64

/-- How many digits stand before the decimal point of a ratio; zero or negative when
the ratio is below one. -/
def decimalPlaces (num den : Nat) : Int :=
  if den ≤ num then ((Nat.toDigits 10 (num / den)).length : Int)
  else 1 - ((Nat.toDigits 10 ((den - 1) / num)).length : Int)

/-- `value * 10 ^ power` as a numerator and a denominator. -/
def decimalScale (value : Nat) (power : Int) : Nat × Nat :=
  match power with
  | .ofNat p => (value * Nat.pow 10 p, 1)
  | .negSucc p => (value, Nat.pow 10 (p + 1))

/-- Of the two grid points around `num / den` at `10 ^ power`, the nearer one that reads
back as `x`; of two equally near, the even one is tried first. -/
def nearestOnGrid (x : Binary64) (num den : Nat) (power : Int) : Option Nat :=
  let (a, b) := decimalScale den power
  let low := num * b / a
  let twice := 2 * (num * b % a)
  let lowNear := twice < a || (twice == a && low % 2 == 0)
  let readsBack (digits : Nat) : Bool := ofDecimal false digits power == x
  let (first, second) := if lowNear then (low, low + 1) else (low + 1, low)
  if readsBack first then some first else if readsBack second then some second else none

/-- Try `tries` numbers of digits, from `count` on. -/
def shortestFrom (x : Binary64) (num den : Nat) (places : Int) : Nat → Nat → Nat × Int
  | 0, _ => (num / den, 0)
  | tries + 1, count =>
    match nearestOnGrid x num den (places - count) with
    | some digits => (digits, places - count)
    | none => shortestFrom x num den places tries (count + 1)

/-- The shortest decimal `digits * 10 ^ power` of a positive finite number. -/
def shortest (significand : Nat) (exponent : Int) : Nat × Int :=
  let (num, den) := scale significand exponent
  shortestFrom (.finite false significand exponent) num den (decimalPlaces num den) 17 1

/-- How a number is laid out. -/
structure Style where
  /-- Positional notation needs more than this many places before the point. -/
  leastPlaces : Int
  /-- A positive exponent has a sign. -/
  plusSign : Bool
  /-- The fewest digits of an exponent. -/
  exponentDigits : Nat

/-- The style of messages and reports: positional from 0.0001 on, `1e+16`, `1e-05`. -/
def Style.report : Style := ⟨-4, true, 2⟩

/-- The style of stored files: positional from 0.00001 on, `1e16`, `1e-6`. -/
def Style.stored : Style := ⟨-5, false, 1⟩

/-- Remove the zeros at the end of a digit string. -/
def withoutTrailingZeros (digits : List Char) : List Char :=
  (digits.reverse.dropWhile (· == '0')).reverse

def Style.exponentText (style : Style) (e : Int) : List Char :=
  let digits := Nat.toDigits 10 e.natAbs
  let sign := if e < 0 then ['-'] else if style.plusSign then ['+'] else []
  'e' :: sign ++ List.replicate (style.exponentDigits - digits.length) '0' ++ digits

/-- Lay out significant digits around the decimal point, `places` of them before it.
Positional notation ends at sixteen places. -/
def Style.layOut (style : Style) (digits : List Char) (places : Int) : List Char :=
  if style.leastPlaces < places && places ≤ 16 then
    if places ≤ 0 then '0' :: '.' :: List.replicate (-places).toNat '0' ++ digits
    else if digits.length ≤ places.toNat then
      digits ++ List.replicate (places.toNat - digits.length) '0' ++ ['.', '0']
    else digits.take places.toNat ++ '.' :: digits.drop places.toNat
  else
    match digits with
    | [] => []
    | [d] => d :: style.exponentText (places - 1)
    | d :: rest => d :: '.' :: rest ++ style.exponentText (places - 1)

def finiteText (style : Style) (negative : Bool) (significand : Nat) (exponent : Int) :
    List Char :=
  let sign := if negative then ['-'] else []
  if significand == 0 then sign ++ ['0', '.', '0']
  else
    let (digits, power) := shortest significand exponent
    let all := Nat.toDigits 10 digits
    sign ++ style.layOut (withoutTrailingZeros all) (all.length + power)

/-- The text of a number in messages. -/
def toText : Binary64 → String
  | .nan => "nan"
  | .infinity negative => if negative then "-inf" else "inf"
  | .finite negative significand exponent =>
    String.ofList (finiteText .report negative significand exponent)

end Vesting.Binary64
