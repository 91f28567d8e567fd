/-
# Forms of command lines

A form says which switches and operands a program takes. A switch has one or more names,
behind one dash or two, and some take a value. Operands stand in a fixed order; one that
takes the rest begins the command line of another form.
-/

namespace Vesting.CommandLine

/-- What a switch does. -/
inductive Effect
  /-- Ask how the program is used. -/
  | help
  /-- Ask for the version of the program. -/
  | version
  | flag (value : Bool)
  | text
  | whole
  | choice (words : List String)
  deriving DecidableEq

/-- A switch. -/
structure Switch where
  names : List String
  /-- The name that its value is kept under. -/
  field : String
  effect : Effect
  required : Bool
  deriving DecidableEq

namespace Switch

def takesValue (s : Switch) : Bool :=
  match s.effect with
  | .text | .whole | .choice _ => true
  | _ => false

def label (s : Switch) : String := "/".intercalate s.names

/-- A switch in a line about usage. -/
def usage (s : Switch) : String :=
  let name := s.names.headD ""
  let shown := if s.takesValue then s!"{name} {s.field.toUpper}" else name
  if s.required then shown else s!"[{shown}]"

end Switch

/-- An operand. -/
structure Operand where
  name : String
  takesRest : Bool
  deriving DecidableEq

/-- A form of command lines. -/
structure Form where
  program : String
  switches : List Switch
  operands : List Operand
  deriving DecidableEq

namespace Form

/-- The names of all switches, in order. -/
def names (f : Form) : List (String × Switch) :=
  f.switches.flatMap fun s => s.names.map fun name => (name, s)

def find? (f : Form) (name : String) : Option Switch :=
  (f.names.find? (·.1 == name)).map (·.2)

def usage (f : Form) : String :=
  let operands := f.operands.map fun o => if o.takesRest then s!"[{o.name} ...]" else o.name
  "usage: " ++ " ".intercalate (f.program :: f.switches.map Switch.usage ++ operands) ++ "\n"

end Form

end Vesting.CommandLine
