/-
# Command lines that ask to verify

A request to verify is written as a command line: the file and the recipient, and behind them
the switches that are set, the root behind an equals sign. Main statement: the line asks for
what was written, with any text for the root. It is enough that the file and the recipient do
not look like switches; a recipient that can be read as a key never does.

The line is marked twice: as a whole with the form of the program, which has to find nothing
ambiguous in it and leaves it to the command, and then with the form of the command.
-/

import Vesting.Invocation
import Vesting.Proofs.CommandLine.Reading

namespace Vesting

open CommandLine

/-- The switches of a request to verify, as they are written. -/
def VerifyArguments.switchWords (args : VerifyArguments) : List String :=
  textWords args.root "--root" ++ (flagWords args.json "--json" ++ flagWords args.debug "--debug")

/-- A command line for a request to verify. -/
def VerifyArguments.line (args : VerifyArguments) : List String :=
  "verify" :: args.distribution :: args.recipient :: args.switchWords

/-- A text that can be read as bytes does not look like a switch. -/
theorem head?_ne_dash_of_ofHex {text : String} {b : Bytes} (read : ofHex text = .ok b) :
    text.toList.head? ≠ some '-' := by
  intro dash
  unfold ofHex at read
  split at read
  next digits spelled =>
      rw [spelled] at dash
      simp at dash
  next => cases read

namespace Invocation

variable {args : VerifyArguments}

/-- A command line that begins with the name of a command is left to that command. -/
theorem read_mainForm {name : String} {rest : List String} {items : List Item}
    (plain : name.toList.head? ≠ some '-') (marked : markAll mainForm rest = .ok items) :
    CommandLine.read mainForm (name :: rest) = .ok ⟨[], name :: rest, []⟩ := by
  have all := markAll_cons (ne_dashes_of_plain plain) (mark_operand plain) marked
  have texts := map_text_of_markAll all
  have first : readOperand ⟨"command", true⟩ (⟨name, .operand⟩ :: items) ⟨[], [], []⟩ =
      some (⟨[], name :: rest, []⟩, []) := by
    simp only [readOperand, List.takeWhile_cons, Item.isDashes, Bool.false_eq_true, if_false,
      List.length_nil, List.drop_zero, if_true, texts]
  have front : readOperands mainForm.operands (⟨name, .operand⟩ :: items) ⟨[], [], []⟩ =
      ([], [], ⟨[], name :: rest, []⟩) := by
    have operands : mainForm.operands = [⟨"command", true⟩] := rfl
    rw [operands, readOperands]
    simp only [first]
    rfl
  exact read_of_reads all (.front front Nat.zero_lt_one (Nat.zero_le _) (.nil _ _ _)) rfl

def rootSwitch : Switch := ⟨["--root"], "root", .text, false⟩

/-- The form of the command that verifies. -/
def verifyForm : Form :=
  commandForm "verify" [rootSwitch, jsonSwitch, debugSwitch] [treeOperand, recipientOperand]

/-- What the switches of a request are marked as. -/
def switchItems (args : VerifyArguments) : List Item :=
  textItems args.root rootSwitch "--root" ++
    (flagItems args.json jsonSwitch "--json" ++ flagItems args.debug debugSwitch "--debug")

/-- What a request gives, latest first. -/
def givenBy (args : VerifyArguments) : List (String × Given) :=
  flagGiven args.debug debugSwitch ++ (flagGiven args.json jsonSwitch ++
    (textGiven args.root rootSwitch ++
      [("recipient", .text args.recipient), ("tree", .text args.distribution)]))

theorem unsigned_verifyForm : verifyForm.Unsigned := by decide +kernel

/-- The program has no switch for a root of its own. -/
theorem exists_mark_root (text : String) :
    ∃ m : Mark, mark mainForm ("--root" ++ "=" ++ text) = .ok m := by
  have front : (splitAtSign ("--root" ++ "=" ++ text).toList).1 = "--root".toList := by
    have parts : ("--root" ++ "=" ++ text).toList = "--root".toList ++ '=' :: text.toList := by simp
    rw [parts, splitAtSign_append (by decide)]
  exact exists_mark_strange front (by decide +kernel)

theorem exists_mark_json : ∃ m : Mark, mark mainForm "--json" = .ok m :=
  exists_mark_strange rfl (by decide +kernel)

theorem exists_mark_debug : ∃ m : Mark, mark mainForm "--debug" = .ok m :=
  exists_mark_strange rfl (by decide +kernel)

/-- The switches of a request do not stand alone, and the program's own form finds nothing
ambiguous in them. -/
theorem markable_switchWords {arg : String} (member : arg ∈ args.switchWords) :
    arg ≠ "--" ∧ ∃ m : Mark, mark mainForm arg = .ok m := by
  obtain root | json | debug : arg ∈ textWords args.root "--root" ∨
      arg ∈ flagWords args.json "--json" ∨ arg ∈ flagWords args.debug "--debug" := by
    simpa only [VerifyArguments.switchWords, List.mem_append] using member
  · obtain ⟨text, -, rfl⟩ := Option.map_eq_some_iff.1 (Option.mem_toList.1 root)
    exact ⟨signed_ne_dashes _ _, exists_mark_root text⟩
  · obtain ⟨-, rfl⟩ := mem_flagWords.1 json
    exact ⟨by decide, exists_mark_json⟩
  · obtain ⟨-, rfl⟩ := mem_flagWords.1 debug
    exact ⟨by decide, exists_mark_debug⟩

theorem markAll_switchWords (args : VerifyArguments) :
    markAll verifyForm args.switchWords = .ok (switchItems args) := by
  have debug : markAll verifyForm (flagWords args.debug "--debug") =
      .ok (flagItems args.debug debugSwitch "--debug") := by
    cases args.debug with
    | false => rfl
    | true => exact markAll_cons (by decide) (mark_named rfl rfl) rfl
  have single : "--json" ≠ "--" := by decide
  have json := markAll_flagWords (s := jsonSwitch) single rfl rfl debug args.json
  exact markAll_textWords unsigned_verifyForm rfl (by decide) rfl json args.root

theorem reads_switchItems (args : VerifyArguments) :
    Reads verifyForm [] (switchItems args)
      ⟨[("recipient", .text args.recipient), ("tree", .text args.distribution)], [], []⟩
      ⟨givenBy args, [], []⟩ := by
  have debug (given : List (String × Given)) :
      Reads verifyForm [] (flagItems args.debug debugSwitch "--debug") ⟨given, [], []⟩
        ⟨flagGiven args.debug debugSwitch ++ given, [], []⟩ := by
    cases args.debug with
    | false => exact .nil _ _ _
    | true => exact .flag rfl (.nil _ _ _)
  exact .texts rfl (.flags rfl (debug _))

theorem takeWhile_isDashes_switchItems (args : VerifyArguments) :
    (switchItems args).takeWhile Item.isDashes = [] := by
  apply takeWhile_isDashes_textItems
  apply takeWhile_isDashes_flagItems
  cases args.debug <;> rfl

/-- A request to verify reads back from its command line. -/
theorem read_verifyForm (path : args.distribution.toList.head? ≠ some '-')
    (key : args.recipient.toList.head? ≠ some '-') :
    CommandLine.read verifyForm args.line.tail = .ok ⟨givenBy args, [], []⟩ := by
  have singlePath := ne_dashes_of_plain path
  have singleKey := ne_dashes_of_plain key
  have marked : markAll verifyForm args.line.tail =
      .ok (⟨args.distribution, .operand⟩ :: ⟨args.recipient, .operand⟩ :: switchItems args) :=
    markAll_cons singlePath (mark_operand path)
      (markAll_cons singleKey (mark_operand key) (markAll_switchWords args))
  have front : readOperands verifyForm.operands
      (⟨args.distribution, .operand⟩ :: ⟨args.recipient, .operand⟩ :: switchItems args)
      ⟨[], [], []⟩ = ([], switchItems args,
        ⟨[("recipient", .text args.recipient), ("tree", .text args.distribution)], [], []⟩) := by
    have operands : verifyForm.operands = [treeOperand, recipientOperand] := rfl
    rw [operands, readOperands_cons rfl singlePath rfl,
      readOperands_cons rfl singleKey (takeWhile_isDashes_switchItems args)]
    rfl
  have complete : missing verifyForm ⟨givenBy args, [], []⟩ = [] := by
    obtain ⟨path, recipient, root, json, debug⟩ := args
    cases root <;> cases json <;> cases debug <;> rfl
  have reads : Reads verifyForm verifyForm.operands _ ⟨[], [], []⟩ ⟨givenBy args, [], []⟩ :=
    .front front (by decide) (Nat.le_succ _) (reads_switchItems args)
  exact read_of_reads marked reads complete

/-- What is given makes up the request. -/
theorem verify_of_givenBy (args : VerifyArguments) :
    Command.verify {
      distribution := demand ⟨givenBy args, [], []⟩ "tree"
      recipient := demand ⟨givenBy args, [], []⟩ "recipient"
      root := Arguments.text? ⟨givenBy args, [], []⟩ "root"
      json := isSet ⟨givenBy args, [], []⟩ "json"
      debug := isSet ⟨givenBy args, [], []⟩ "debug" } = .verify args := by
  obtain ⟨path, recipient, root, json, debug⟩ := args
  cases root <;> cases json <;> cases debug <;> rfl

/-- The command line for a request to verify asks for it, whatever text is given as the root. -/
theorem read_line (path : args.distribution.toList.head? ≠ some '-')
    (key : args.recipient.toList.head? ≠ some '-') :
    Invocation.read args.line = .run ⟨none, none, .verify args⟩ := by
  have markable : ∀ arg ∈ args.line.tail, arg ≠ "--" ∧ ∃ m : Mark, mark mainForm arg = .ok m := by
    intro arg member
    obtain rfl | rfl | switch : arg = args.distribution ∨ arg = args.recipient ∨ _ := by
      simpa only [VerifyArguments.line, List.tail_cons, List.mem_cons] using member
    · exact ⟨ne_dashes_of_plain path, _, mark_operand path⟩
    · exact ⟨ne_dashes_of_plain key, _, mark_operand key⟩
    · exact markable_switchWords switch
  obtain ⟨items, marked⟩ := exists_markAll markable
  have name : "verify".toList.head? ≠ some '-' := by decide
  have outer : CommandLine.read mainForm args.line = .ok ⟨[], args.line, []⟩ :=
    read_mainForm name marked
  have inner := read_verifyForm path key
  have entry : ∃ make : Arguments → Command,
      entries.find? (·.name == "verify") = some ⟨"verify", [rootSwitch, jsonSwitch, debugSwitch],
        [treeOperand, recipientOperand], make⟩ ∧
      make ⟨givenBy args, [], []⟩ = .verify args := ⟨_, rfl, verify_of_givenBy args⟩
  obtain ⟨make, found, made⟩ := entry
  rw [Invocation.read, outer]
  have rest : args.line = "verify" :: args.line.tail := rfl
  rw [rest]
  simp only [found]
  have form : commandForm "verify" [rootSwitch, jsonSwitch, debugSwitch]
    [treeOperand, recipientOperand] = verifyForm := rfl
  rw [form, inner]
  simp only [made]
  rfl

end Invocation

end Vesting
