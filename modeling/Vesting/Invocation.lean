/-
# Invocations

The program has one form of command line for itself and one for each of its commands. A
command line asks for one of the commands under some settings, or how the program is
used, or it is misused.
-/

import Vesting.CommandLine.Arguments
import Vesting.Log

namespace Vesting

open CommandLine

/-- Build a distribution from a table of records and keep it. -/
structure CreateArguments where
  table : String
  output : Option String
  version : Option Int
  strict : Option Bool
  json : Bool

/-- Show the record and the proof of a recipient. -/
structure ProofArguments where
  distribution : String
  recipient : String
  json : Bool

/-- Check the proof of a recipient. -/
structure VerifyArguments where
  distribution : String
  recipient : String
  root : Option String
  json : Bool
  debug : Bool

/-- Audit a distribution. -/
structure AuditArguments where
  distribution : String
  json : Bool
  debug : Bool

/-- Plan a rotation to the records of a table. -/
structure RotateArguments where
  distribution : String
  table : String
  output : Option String
  version : Option Int
  json : Bool

/-- Write sample records to a table. -/
structure SampleArguments where
  output : String
  count : Int
  seed : Option Int

/-- Create a file of settings or show the settings. -/
structure SettingsArguments where
  create : Bool
  display : Bool
  path : String

/-- A command. -/
inductive Command
  | create (args : CreateArguments)
  | proof (args : ProofArguments)
  | verify (args : VerifyArguments)
  | audit (args : AuditArguments)
  | rotate (args : RotateArguments)
  | sample (args : SampleArguments)
  | settings (args : SettingsArguments)

/-- Whether a failure is to be reported with its kind. -/
def Command.debug : Command → Bool
  | verify args => args.debug
  | audit args => args.debug
  | _ => false

/-- A command under some settings. -/
structure Invocation where
  /-- The path of a file of settings. -/
  settings : Option String
  /-- The level of the log. -/
  level : Option String
  command : Command

/-- What a command line asks for. -/
inductive Request
  | run (invocation : Invocation)
  | usage (text : String)
  | version
  /-- No command is given. -/
  | lacking (usage : String)
  | misuse (usage : String) (message : String)

namespace Invocation

def program : String := "rootlock"

def programVersion : String := "0.1.0"

/-- The switch that asks how the program is used. -/
def helpSwitch : Switch := ⟨["-h", "--help"], "help", .help, false⟩

def flagSwitch (name field : String) : Switch := ⟨[name], field, .flag true, false⟩

/-- The switch for the version of a distribution. -/
def versionSwitch : Switch := ⟨["--tree-version"], "tree_version", .whole, false⟩

def outputSwitch (required : Bool) : Switch := ⟨["--out", "-o"], "out", .text, required⟩

/-- The switch for a report in JSON. -/
def jsonSwitch : Switch := flagSwitch "--json" "json"

def debugSwitch : Switch := flagSwitch "--debug" "debug"

/-- The operand for the file of a distribution. -/
def treeOperand : Operand := ⟨"tree", false⟩

def recipientOperand : Operand := ⟨"recipient", false⟩

def mainForm : Form where
  program := program
  switches := [
    helpSwitch, ⟨["--version"], "version", .version, false⟩,
    ⟨["--config", "-c"], "config", .text, false⟩,
    ⟨["--log-level"], "log_level", .choice (Severity.all.map Severity.label), false⟩]
  operands := [⟨"command", true⟩]

def commandForm (name : String) (switches : List Switch) (operands : List Operand) : Form :=
  ⟨program ++ " " ++ name, helpSwitch :: switches, operands⟩

/-- A text that has to be given. -/
def demand (a : Arguments) (field : String) : String := (a.text? field).getD ""

def isSet (a : Arguments) (field : String) : Bool := (a.flag? field).getD false

/-- A command with its form. -/
structure Entry where
  name : String
  switches : List Switch
  operands : List Operand
  make : Arguments → Command

def entries : List Entry := [
  { name := "create-merkle-tree"
    switches := [
      ⟨["--csv"], "csv", .text, true⟩, outputSwitch false, versionSwitch,
      ⟨["--strict"], "strict", .flag true, false⟩, ⟨["--no-strict"], "strict", .flag false, false⟩,
      jsonSwitch]
    operands := []
    make := fun a => .create {
      table := demand a "csv", output := a.text? "out", version := a.whole? "tree_version",
      strict := a.flag? "strict", json := isSet a "json" } },
  { name := "proof"
    switches := [jsonSwitch]
    operands := [treeOperand, recipientOperand]
    make := fun a => .proof {
      distribution := demand a "tree", recipient := demand a "recipient",
      json := isSet a "json" } },
  { name := "verify"
    switches := [⟨["--root"], "root", .text, false⟩, jsonSwitch, debugSwitch]
    operands := [treeOperand, recipientOperand]
    make := fun a => .verify {
      distribution := demand a "tree", recipient := demand a "recipient",
      root := a.text? "root", json := isSet a "json", debug := isSet a "debug" } },
  { name := "verify-tree"
    switches := [jsonSwitch, debugSwitch]
    operands := [treeOperand]
    make := fun a => .audit {
      distribution := demand a "tree", json := isSet a "json", debug := isSet a "debug" } },
  { name := "rotate"
    switches := [
      ⟨["--tree"], "tree", .text, true⟩, ⟨["--csv"], "csv", .text, true⟩, outputSwitch false,
      versionSwitch, jsonSwitch]
    operands := []
    make := fun a => .rotate {
      distribution := demand a "tree", table := demand a "csv", output := a.text? "out",
      version := a.whole? "tree_version", json := isSet a "json" } },
  { name := "generate-test-csv"
    switches := [
      outputSwitch true, ⟨["--num-nodes"], "num_nodes", .whole, true⟩,
      ⟨["--seed"], "seed", .whole, false⟩]
    operands := []
    make := fun a => .sample {
      output := demand a "out", count := (a.whole? "num_nodes").getD 0,
      seed := a.whole? "seed" } },
  { name := "config"
    switches := [
      flagSwitch "--init" "init", flagSwitch "--show" "show",
      ⟨["--path"], "path", .text, false⟩]
    operands := []
    make := fun a => .settings {
      create := isSet a "init", display := isSet a "show",
      path := (a.text? "path").getD "rootlock.yaml" } }]

/-- The answer to a command line that could not be read with a form. -/
def stopped (f : Form) : Stop → Request
  | .help => .usage f.usage
  | .version => .version
  | .fault message => .misuse f.usage s!"{f.program}: error: {message}"

/-- The answer to arguments for which there is no place. -/
def unplaced (extras : List String) : Request :=
  stopped mainForm (.fault ("unrecognized arguments: " ++ " ".intercalate extras))

def read (args : List String) : Request :=
  match CommandLine.read mainForm args with
  | .error stop => stopped mainForm stop
  | .ok outer =>
    match outer.rest with
    | [] => if outer.extras.isEmpty then .lacking mainForm.usage else unplaced outer.extras
    | name :: rest =>
      match entries.find? (·.name == name) with
      | none => stopped mainForm (notAmong "command" name (entries.map (·.name)))
      | some entry =>
        let form := commandForm name entry.switches entry.operands
        match CommandLine.read form rest with
        | .error stop => stopped form stop
        | .ok inner =>
          let extras := outer.extras ++ inner.extras
          if extras.isEmpty then
            .run ⟨outer.text? "config", outer.text? "log_level", entry.make inner⟩
          else unplaced extras

end Invocation

end Vesting
