/-
# Switches among arguments

Before a command line is read, every argument is marked as an operand or a switch. An
argument that begins with a dash is a switch if it is the name of one, begins with such a
name and an equals sign, or is the beginning of exactly one name; a name behind a single
dash can have its value attached to it. A negative number and a text with a space in it
are operands otherwise, and everything is one behind two dashes that stand alone.
-/

import Vesting.CommandLine.Form
import Vesting.Text.DecimalDigit

namespace Vesting.CommandLine

/-- A value in one argument with its switch. -/
structure Attached where
  /-- Whether it stands behind an equals sign. -/
  signed : Bool
  text : String

/-- What an argument is. -/
inductive Mark
  | operand
  /-- Two dashes that stand alone. -/
  | dashes
  | unknown
  | switch (s : Switch) (name : String) (attached : Option Attached)

/-- An argument and what it is. -/
structure Item where
  text : String
  mark : Mark

/-- The text before and behind the first equals sign, if there is one. -/
def splitAtSign : List Char → List Char × Option (List Char)
  | [] => ([], none)
  | '=' :: rest => ([], some rest)
  | c :: rest =>
    let (front, back) := splitAtSign rest
    (c :: front, back)

/-- Whether a text stands for digits only. -/
def allDigits (cs : List Char) : Bool := cs.all fun c => (Text.digitValue? c).isSome

/-- A minus sign and digits, of which some can stand behind a point. -/
def isNegativeNumber (cs : List Char) : Bool :=
  match (if cs.getLast? == some '\n' then cs.dropLast else cs) with
  | '-' :: body =>
    let whole := body.takeWhile fun c => (Text.digitValue? c).isSome
    match body.drop whole.length with
    | [] => !whole.isEmpty
    | '.' :: digits => !digits.isEmpty && allDigits digits
    | _ => false
  | _ => false

/-- A switch by its name, with what is attached. -/
abbrev Candidate := String × Switch × Option Attached

/-- The switches that an argument can stand for. -/
def candidates (f : Form) (arg : List Char) : List Candidate :=
  if arg.tail.head? == some '-' then
    let (front, back) := splitAtSign arg
    f.names.filterMap fun (name, s) =>
      if front.isPrefixOf name.toList then
        some (name, s, back.map fun text => ⟨true, String.ofList text⟩)
      else none
  else
    f.names.filterMap fun (name, s) =>
      if name.toList == arg.take 2 then some (name, s, some ⟨false, String.ofList (arg.drop 2)⟩)
      else if arg.isPrefixOf name.toList then some (name, s, none)
      else none

/-- The switch that an argument names before an equals sign. -/
def named? (f : Form) (arg : List Char) : Option Candidate :=
  match splitAtSign arg with
  | (front, some text) =>
    (f.find? (String.ofList front)).map fun s =>
      (String.ofList front, s, some ⟨true, String.ofList text⟩)
  | (_, none) => none

/-- What an argument is, or the message that it can be several things. -/
def mark (f : Form) (arg : String) : Except String Mark :=
  let cs := arg.toList
  if cs.head? != some '-' then .ok .operand
  else match f.find? arg, named? f cs with
    | some s, _ => .ok (.switch s arg none)
    | none, some (name, s, attached) => .ok (.switch s name attached)
    | none, none =>
      if cs.length = 1 then .ok .operand
      else match candidates f cs with
        | [(name, s, attached)] => .ok (.switch s name attached)
        | [] => .ok (if isNegativeNumber cs || cs.contains ' ' then .operand else .unknown)
        | several =>
          let matching := ", ".intercalate (several.map (·.1))
          .error s!"ambiguous option: {arg} could match {matching}"

def markAll (f : Form) : List String → Except String (List Item)
  | [] => .ok []
  | arg :: rest =>
    if arg == "--" then .ok (⟨arg, .dashes⟩ :: rest.map fun text => ⟨text, .operand⟩)
    else do
      let kind ← mark f arg
      let items ← markAll f rest
      return ⟨arg, kind⟩ :: items

end Vesting.CommandLine
