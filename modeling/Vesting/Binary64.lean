/-
# Binary floating-point numbers of sixty-four bits

Numbers with a fraction or an exponent never enter a record, but they do turn up in
its input and are shown in error messages. A finite number is kept as a significand
and a power of two; decimal notation is read by rounding the exact ratio to the
nearest number, and a tie goes to the even significand.
-/

namespace Vesting

/-- A floating-point number. The finite number is `significand * 2 ^ exponent`, with
the exponent at least -1074 and as small as a significand of fifty-three bits allows. -/
inductive Binary64
  | nan
  | infinity (negative : Bool)
  | finite (negative : Bool) (significand : Nat) (exponent : Int)
  deriving DecidableEq

namespace Binary64

/-- `value * 2 ^ exponent` as a numerator and a denominator. -/
def scale (value : Nat) (exponent : Int) : Nat × Nat :=
  match exponent with
  | .ofNat e => (value * Nat.pow 2 e, 1)
  | .negSucc e => (value, Nat.pow 2 (e + 1))

/-- The quotient rounded to the nearest whole number, a tie to the even one. -/
def roundDiv (num den : Nat) : Nat :=
  let q := num / den
  let twice := 2 * (num % den)
  if twice < den then q
  else if den < twice then q + 1
  else if q % 2 == 0 then q else q + 1

/-- The number nearest to a positive ratio, infinite above the largest finite number. -/
def ofRatio (negative : Bool) (num den : Nat) : Binary64 :=
  if num == 0 then .finite negative 0 (-1074)
  else
    let guess : Int := max (-1074) ((num.log2 : Int) - den.log2 - 53)
    let fits (e : Int) : Bool :=
      let (a, b) := scale den e
      num * b < 0x20000000000000 * a
    let exponent := if fits guess then guess else guess + 1
    let (a, b) := scale den exponent
    let rounded := roundDiv (num * b) a
    let (significand, exponent) :=
      if rounded == 0x20000000000000 then (0x10000000000000, exponent + 1) else (rounded, exponent)
    if exponent > 971 then .infinity negative else .finite negative significand exponent

/-- The number nearest to `digits * 10 ^ exponent`. Exponents that leave the range
whatever the digits are decided without computing the power. -/
def ofDecimal (negative : Bool) (digits : Nat) (exponent : Int) : Binary64 :=
  if digits == 0 then .finite negative 0 (-1074)
  else
    let places : Int := (Nat.toDigits 10 digits).length + exponent
    if places > 310 then .infinity negative
    else if places < -330 then .finite negative 0 (-1074)
    else match exponent with
      | .ofNat e => ofRatio negative (digits * Nat.pow 10 e) 1
      | .negSucc e => ofRatio negative digits (Nat.pow 10 (e + 1))

/-- The whole number that a floating-point number is equal to, if there is one. -/
def toInt? : Binary64 → Option Int
  | .finite negative significand exponent =>
    let (num, den) := scale significand exponent
    if num % den ≠ 0 then none
    else if negative then some (-(num / den : Nat)) else some (num / den : Nat)
  | _ => none

end Binary64

end Vesting
