/-
# Reading command lines

Switches and operands can be mixed. Of a switch that is given twice the later counts.
Arguments for which there is no place are kept apart, since they are only complained
about when everything else is in order; whatever is required has to be there, and a
switch that asks a question is answered at once.
-/

import Vesting.CommandLine.Mark
import Vesting.Text.Quoted
import Vesting.Text.WholeNumber

namespace Vesting.CommandLine

/-- Why reading ends early. -/
inductive Stop
  | help
  | version
  | fault (message : String)

/-- A value that is given. -/
inductive Given
  | flag (b : Bool)
  | text (s : String)
  | whole (n : Int)

/-- What a command line gives. -/
structure Arguments where
  /-- Values by the names they are kept under, latest first. -/
  given : List (String × Given)
  /-- The command line of another form. -/
  rest : List String
  /-- Arguments without a place. -/
  extras : List String

namespace Arguments

/-- The value that is kept under a name. -/
def get? (a : Arguments) (field : String) : Option Given :=
  (a.given.find? (·.1 == field)).map (·.2)

def text? (a : Arguments) (field : String) : Option String :=
  match a.get? field with
  | some (.text s) => some s
  | _ => none

def whole? (a : Arguments) (field : String) : Option Int :=
  match a.get? field with
  | some (.whole n) => some n
  | _ => none

def flag? (a : Arguments) (field : String) : Option Bool :=
  match a.get? field with
  | some (.flag b) => some b
  | _ => none

def put (a : Arguments) (field : String) (v : Given) : Arguments :=
  { a with given := (field, v) :: a.given }

end Arguments

/-- A fault of the value of an argument. -/
def faultOf (label message : String) : Stop := .fault s!"argument {label}: {message}"

/-- A fault of a value that is not among some words. -/
def notAmong (label value : String) (words : List String) : Stop :=
  let choices := ", ".intercalate (words.map Text.quoted)
  faultOf label s!"invalid choice: {Text.quoted value} (choose from {choices})"

def Switch.apply (s : Switch) (value : String) (a : Arguments) : Except Stop Arguments :=
  match s.effect with
  | .help => .error .help
  | .version => .error .version
  | .flag b => .ok (a.put s.field (.flag b))
  | .text => .ok (a.put s.field (.text value))
  | .whole =>
    match Text.readNumber value with
    | .ok n => .ok (a.put s.field (.whole n))
    | .error _ => .error (faultOf s.label s!"invalid int value: {Text.quoted value}")
  | .choice words =>
    if words.contains value then .ok (a.put s.field (.text value))
    else .error (notAmong s.label value words)

/-- Let switches without a value take effect, in order. -/
def applyAll (switches : List Switch) (a : Arguments) : Except Stop Arguments :=
  switches.foldlM (fun a s => s.apply "" a) a

/-- Read a switch and its value: the one attached to it, or else the next argument. If the
switch takes no value but stands behind a single dash, what is attached is read as further
switches of one letter; `pending` are those before it. The fuel is more than the length of
what is attached. -/
def readSwitch (f : Form) : Nat → List Switch → Switch → String → Option Attached →
    List Item → Arguments → Except Stop (Arguments × List Item)
  | 0, _, _, _, _, items, a => .ok (a, items)
  | fuel + 1, pending, s, name, attached, items, a =>
    match attached with
    | none =>
      if s.takesValue then
        match items with
        | ⟨value, .operand⟩ :: rest => do
          let a ← s.apply value (← applyAll pending a)
          return (a, rest)
        | _ => .error (faultOf s.label "expected one argument")
      else do return (← applyAll (pending ++ [s]) a, items)
    | some ⟨signed, text⟩ =>
      if s.takesValue then do
        let a ← s.apply text (← applyAll pending a)
        return (a, items)
      else match text.toList with
        | letter :: more =>
          if name.toList.tail.head? == some '-' || signed || letter == '-' then
            .error (faultOf s.label s!"ignored explicit argument {Text.quoted text}")
          else
            let next := String.ofList ['-', letter]
            match f.find? next with
            | some t =>
              let attached := match more with
                | [] => none
                | '=' :: value => some ⟨true, String.ofList value⟩
                | _ => some ⟨false, String.ofList more⟩
              readSwitch f fuel (pending ++ [s]) t next attached items a
            | none => do
              let a ← applyAll (pending ++ [s]) a
              return ({ a with extras := a.extras ++ ["-" ++ text] }, items)
        | [] => .error (faultOf s.label s!"ignored explicit argument {Text.quoted text}")

/-- Whether an argument is two dashes that stand alone. -/
def Item.isDashes (item : Item) : Bool :=
  match item.mark with
  | .dashes => true
  | _ => false

/-- Whether an argument can belong to an operand. -/
def Item.isPlain (item : Item) : Bool :=
  match item.mark with
  | .operand | .dashes => true
  | _ => false

/-- Read an operand at the front. Dashes around it are left out, unless it takes the rest. -/
def readOperand (o : Operand) (items : List Item) (a : Arguments) :
    Option (Arguments × List Item) :=
  let front := items.takeWhile Item.isDashes
  match items.drop front.length with
  | ⟨text, .operand⟩ :: after =>
    if o.takesRest then some ({ a with rest := items.map (·.text) }, [])
    else
      let back := after.takeWhile Item.isDashes
      let value := ((front.map (·.text) ++ text :: back.map (·.text)).erase "--").headD ""
      some (a.put o.name (.text value), after.drop back.length)
  | _ => none

/-- Read as many operands at the front as there are. -/
def readOperands : List Operand → List Item → Arguments → List Operand × List Item × Arguments
  | [], items, a => ([], items, a)
  | o :: rest, items, a =>
    match readOperand o items a with
    | some (a, items) => readOperands rest items a
    | none => (o :: rest, items, a)

/-- Read marked arguments; `operands` are those that have not been read. The fuel is more
than the number of arguments. -/
def readItems (f : Form) : Nat → List Operand → List Item → Arguments → Except Stop Arguments
  | 0, _, _, a => .ok a
  | _, _, [], a => .ok a
  | fuel + 1, operands, item :: rest, a =>
    match item.mark with
    | .unknown => readItems f fuel operands rest { a with extras := a.extras ++ [item.text] }
    | .switch s name attached => do
      let size := (attached.map (·.text.length)).getD 0
      let (a, rest) ← readSwitch f (size + 1) [] s name attached rest a
      readItems f fuel operands rest a
    | _ =>
      let (left, after, read) := readOperands operands (item :: rest) a
      if left.length < operands.length then readItems f fuel left after read
      else
        let plain := (item :: rest).takeWhile Item.isPlain
        readItems f fuel operands ((item :: rest).drop plain.length)
          { a with extras := a.extras ++ plain.map (·.text) }

def missing (f : Form) (a : Arguments) : List String :=
  let switches := f.switches.filter fun s => s.required && (a.get? s.field).isNone
  let operands := f.operands.filter fun o => !o.takesRest && (a.get? o.name).isNone
  switches.map Switch.label ++ operands.map (·.name)

def read (f : Form) (args : List String) : Except Stop Arguments :=
  match markAll f args with
  | .error message => .error (.fault message)
  | .ok items =>
    match readItems f (items.length + 1) f.operands items ⟨[], [], []⟩ with
    | .error stop => .error stop
    | .ok a =>
      match missing f a with
      | [] => .ok a
      | names =>
        .error (.fault ("the following arguments are required: " ++ ", ".intercalate names))

end Vesting.CommandLine
