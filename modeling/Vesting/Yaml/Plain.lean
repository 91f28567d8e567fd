/-
# Plain scalars

A scalar without quotes stands for nothing, a truth value or a number if it is spelled
like one, and for itself otherwise. Whole numbers may be binary, octal behind a zero,
hexadecimal, or counted by sixties behind colons; underscores in numbers do not count.
-/

import Vesting.Failure
import Vesting.Text.HexDigit
import Vesting.Value

namespace Vesting.Yaml

/-- A word in small letters, with a capital and in capitals. -/
def spellings (word : String) : List String := [word, word.capitalize, word.toUpper]

/-- Whether a text is a spelling of one of some words. -/
def spells (words : List String) (s : String) : Bool := (words.flatMap spellings).contains s

/-- The value of a digit of a base, which is at most sixteen. -/
def digitOf? (base : Nat) (c : Char) : Option Nat :=
  (Text.hexValue? c).filter (· < base)

/-- Digits of a base between which underscores may stand: at least one digit. -/
def digitsOf? (base : Nat) (cs : List Char) : Option (List Nat) :=
  match (cs.filter (· != '_')).mapM (digitOf? base) with
  | some [] => none
  | digits => digits

/-- The number that digits of a base stand for, most significant first. -/
def ofDigits (base : Nat) (digits : List Nat) : Nat := digits.foldl (fun n d => base * n + d) 0

/-- A number in decimal digits, of which a limited number is read. -/
def decimal? (cs : List Char) : Option (Except Text.WholeFault Nat) :=
  (digitsOf? 10 cs).map fun digits =>
    if Text.longestWhole < digits.length then .error (.tooLong digits.length)
    else .ok (ofDigits 10 digits)

/-- What follows a colon in a number counted by sixties: one or two digits below sixty. -/
def sixtieth? (cs : List Char) : Option Nat :=
  if cs.contains '_' || 2 < cs.length then none
  else (digitsOf? 10 cs).bind fun digits =>
    if ofDigits 10 digits < 60 then some (ofDigits 10 digits) else none

/-- The parts of a text between colons. -/
def betweenColons (cs : List Char) : List (List Char) :=
  cs.foldr (fun c parts => match parts with
    | [] => [[c]]
    | part :: rest => if c == ':' then [] :: part :: rest else (c :: part) :: rest) [[]]

/-- A number without sign that begins with a digit other than zero. -/
def counted? (cs : List Char) : Option (Except Text.WholeFault Nat) :=
  match betweenColons cs with
  | [] => none
  | first :: rest =>
    match decimal? first, rest.mapM sixtieth? with
    | some n, some parts => some (n.map fun n => parts.foldl (fun n part => 60 * n + part) n)
    | _, _ => none

def natural? (cs : List Char) : Option (Except Text.WholeFault Nat) :=
  match cs with
  | ['0'] => some (.ok 0)
  | '0' :: 'b' :: digits => (digitsOf? 2 digits).map fun ds => .ok (ofDigits 2 ds)
  | '0' :: 'x' :: digits => (digitsOf? 16 digits).map fun ds => .ok (ofDigits 16 ds)
  | '0' :: _ => (digitsOf? 8 cs).map fun ds => .ok (ofDigits 8 ds)
  | c :: _ => if c == '_' then none else counted? cs
  | [] => none

/-- The exponent at the end of a number: a letter, a sign and digits. -/
def exponent? (cs : List Char) : Option Int :=
  match cs with
  | [] => some 0
  | e :: sign :: digits =>
    if (e == 'e' || e == 'E') && (sign == '-' || sign == '+') && !digits.contains '_' then
      (digitsOf? 10 digits).map fun ds =>
        if sign == '-' then -(ofDigits 10 ds : Int) else ofDigits 10 ds
    else none
  | _ => none

/-- A character of the digits of a number with a point. -/
def isDigitMark (c : Char) : Bool := c == '_' || ('0' ≤ c && c ≤ '9')

/-- A number with a point. Without digits before the point there is no sign. -/
def pointed? (signed negative : Bool) (cs : List Char) : Option Binary64 :=
  let front := cs.takeWhile isDigitMark
  match cs.dropWhile isDigitMark with
  | '.' :: rest =>
    let back := rest.takeWhile isDigitMark
    let begins := match front with
      | [] => !signed && back.head?.any (· != '_')
      | c :: _ => c != '_'
    if begins then
      (exponent? (rest.dropWhile isDigitMark)).bind fun power =>
        let fraction := back.filter (· != '_')
        (digitsOf? 10 (front ++ fraction)).map fun digits =>
          .ofDecimal negative (ofDigits 10 digits) (power - fraction.length)
    else none
  | _ => none

/-- What a plain scalar stands for. Two marks are reserved. -/
def ofPlain (s : String) : Except Failure Value :=
  let (negative, body) := Text.splitSign s.toList
  let signed := body.length != s.length
  if s == "" || s == "~" || spells ["null"] s then .ok .null
  else if spells ["yes", "true", "on"] s then .ok (.bool true)
  else if spells ["no", "false", "off"] s then .ok (.bool false)
  else if s == "=" || s == "<<" then .error .notYaml
  else match natural? body with
    | some (.ok n) => .ok (.int (if negative then -(n : Int) else n))
    | some (.error fault) => .error (.notWhole s fault)
    | none =>
      if [".inf", ".Inf", ".INF"].contains (String.ofList body) then
        .ok (.float (.infinity negative))
      else if [".nan", ".NaN", ".NAN"].contains s then .ok (.float .nan)
      else .ok ((pointed? signed negative body).elim (.text s) .float)

end Vesting.Yaml
