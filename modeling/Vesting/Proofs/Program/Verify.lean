/-
# What verifying answers

A request to verify names a distribution, a recipient and, if it likes, a root. Main
statement: against a root that is given the program answers for that root alone. It ends well
exactly if the text is the root that the proof leads to, finds a mismatch exactly if it is
another hash, and fails exactly if it is no hash. The empty text is an exception: it counts as
no root, and the answer is for the one of the distribution.

The answer is that of one function of the distribution, the node and the text. The command
gives it in every world, since what it prints and notes on the way cannot fail, and so does the
program, once it has started and the distribution is there.
-/

import Vesting.Proofs.CommandLine.Verifying
import Vesting.Proofs.Distribution.File
import Vesting.Proofs.Program.Outcome

namespace Vesting.Program

open Merkle

/-! ## The answer -/

/-- The root that the proof of a node leads to. Without a proof there are no siblings. -/
def reached (n : Node) : Bytes := foldPath n.record.leaf (n.proof.getD [])

/-- How a check of a proof ends. -/
def judgement (n : Node) (root : Bytes) : ExitStatus :=
  if root = reached n then .success else .mismatch

/-- How a request to verify ends with a distribution and a node of it. -/
def answer (d : Distribution) (n : Node) (root : Option String) : ExitStatus :=
  match nonempty root with
  | none => judgement n d.root
  | some text =>
    match hashOfHex text with
    | .ok hash => judgement n hash
    | .error _ => .failure

variable {d : Distribution} {n : Node}

theorem code_judgement (n : Node) (root : Bytes) :
    ((judgement n root).code = 0 ↔ root = reached n) ∧
      ((judgement n root).code = 2 ↔ root ≠ reached n) ∧ (judgement n root).code ≠ 1 := by
  unfold judgement
  split
  · next led => simp [ExitStatus.code, led]
  · next apart => simp [ExitStatus.code, apart]

theorem nonempty_of_ne {text : String} (given : text ≠ "") : nonempty (some text) = some text := by
  simp [nonempty, Option.filter, given]

theorem answer_of_hash {text : String} {root : Bytes} (given : text ≠ "")
    (read : hashOfHex text = .ok root) : answer d n (some text) = judgement n root := by
  rw [answer, nonempty_of_ne given]
  simp only [read]

theorem answer_of_fault {text : String} {fault : Hex.Fault} (given : text ≠ "")
    (read : hashOfHex text = .error fault) : answer d n (some text) = .failure := by
  rw [answer, nonempty_of_ne given]
  simp only [read]

section World

variable {W : Type} [Storage (StateM W)]

/-! ## The command -/

theorem unfailing_print (summary : VerifySummary) (json : Bool) :
    Unfailing (summary.print json : ExceptT Failure (StateM W) Unit) := by
  unfold VerifySummary.print
  cases json with
  | false => exact unfailing_printLines _
  | true => exact unfailing_printFields _

variable {args : VerifyArguments} {w : W}

theorem result_verifyInputs
    (loaded : result (Distribution.load (.ofString args.distribution)) w = .ok d)
    (found : d.node (.text args.recipient) = .ok n) :
    result (verifyInputs args) w = match nonempty args.root with
      | none => .ok (n, d.root)
      | some text => ((hashOfHex text).mapError .notHex).map fun root => (n, root) := by
  have node : result (outcome (d.node (.text args.recipient)) : ExceptT Failure (StateM W) Node)
      (after (Distribution.load (.ofString args.distribution)) w) = .ok n := found
  rw [verifyInputs, result_bind_of_ok loaded, result_bind_of_ok node]
  cases nonempty args.root with
  | none => rfl
  | some text =>
      cases read : hashOfHex text with
      | ok root => simp only [read]; rfl
      | error fault => simp only [read]; rfl

theorem result_checkNoting (log : Log) (n : Node) (root : Bytes) (w : W) :
    result (checkNoting log n root) w =
      .ok (Inclusion.check n.record (n.proof.getD []) root) := by
  simp only [checkNoting]
  split
  · exact (unfailing_note log _ _ _).result_bind_eq (fun _ => rfl) w
  · rfl

theorem result_verify_of_inputs (log : Log) {root : Bytes}
    (inputs : result (verifyInputs args) w = .ok (n, root)) :
    result (verify log args) w = .ok (judgement n root) := by
  rw [verify, result_bind_of_ok (result_lift_run inputs)]
  dsimp only
  rw [result_bind_of_ok (result_checkNoting log n root _)]
  refine (unfailing_print _ _).result_bind_eq (fun later => ?_) _
  rw [judgement, reached, Inclusion.ok_check, Inclusion.holds]
  by_cases led : foldPath n.record.leaf (n.proof.getD []) = root
  · simp only [led, beq_self_eq_true, if_true]
    exact (unfailing_note log _ _ _).result_bind_eq (fun _ => rfl) later
  · rw [if_neg (Ne.symm led), beq_eq_false_iff_ne.2 led]
    rfl

theorem result_verify_of_notHex (log : Log) {fault : Hex.Fault}
    (inputs : result (verifyInputs args) w = .error (.notHex fault)) :
    result (verify log args) w = .ok .failure := by
  rw [verify, result_bind_of_ok (result_lift_run inputs)]
  rfl

theorem result_verify (log : Log)
    (loaded : result (Distribution.load (.ofString args.distribution)) w = .ok d)
    (found : d.node (.text args.recipient) = .ok n) :
    result (verify log args) w = .ok (answer d n args.root) := by
  have inputs := result_verifyInputs loaded found
  unfold answer
  cases given : nonempty args.root with
  | none =>
      rw [given] at inputs
      exact result_verify_of_inputs log inputs
  | some text =>
      rw [given] at inputs
      cases read : hashOfHex text with
      | ok hash =>
          simp only [read] at inputs ⊢
          exact result_verify_of_inputs log inputs
      | error fault =>
          simp only [read] at inputs ⊢
          exact result_verify_of_notHex log inputs

/-! ## The program -/

/-- The program starts, and then there is a distribution at a path. -/
structure Ready (env : Environment) (settings level : Option String) (path : String)
    (d : Distribution) (before : W) : Prop where
  starts : ∃ (s : Settings) (log : Log), result (startUp env settings level) before = .ok (s, log)
  loads : result (Distribution.load (.ofString path)) (after (startUp env settings level) before) =
    .ok d

variable {env : Environment} {settings level : Option String} {line : List String} {before : W}

theorem result_run_verify
    (asks : Invocation.read line = .run ⟨settings, level, .verify args⟩)
    (ready : Ready env settings level args.distribution d before)
    (found : d.node (.text args.recipient) = .ok n) :
    result (run env line) before = .ok (answer d n args.root) := by
  obtain ⟨s, log, started⟩ := ready.starts
  rw [result_run asks started]
  have answered : result (command log s (.verify args))
      (after (startUp env settings level) before) = .ok (answer d n args.root) :=
    result_verify log ready.loads found
  rw [answered]
  rfl

theorem head?_recipient_of_node (found : d.node (.text args.recipient) = .ok n) :
    args.recipient.toList.head? ≠ some '-' := by
  rw [Distribution.node, Key.bytes?] at found
  cases read : ofHex args.recipient with
  | error fault => rw [read] at found; cases found
  | ok key => exact head?_ne_dash_of_ofHex read

end World

/-- A volume that holds a distribution. -/
def holding (d : Distribution) : Volume :=
  ⟨"", [(["tree.json"], .file (Text.toUtf8 d.toText))], "", ""⟩

/-- With nothing in the environment, the program starts and loads it from there. -/
theorem ready_holding (size : d.root.length = hashSize) :
    Ready [] none none "tree.json" d (holding d) where
  starts := ⟨_, _, rfl⟩
  loads := by
    have path : Path.ofString "tree.json" = ⟨"", ["tree.json"]⟩ := by decide
    have later : after (startUp [] none none) (holding d) = holding d := rfl
    have content : result (Storage.load ⟨"", ["tree.json"]⟩) (holding d) =
        .ok (some (Text.toUtf8 d.toText)) := by
      rw [result, Volume.run_load rfl rfl]
    rw [path, later, Distribution.load, result_bind_of_ok content]
    exact Distribution.ofFile_toText size _

/-! ## Roots that are given -/

section World

variable {W : Type} [Storage (StateM W)] {args : VerifyArguments} {env : Environment}
  {settings level : Option String} {line : List String} {before : W}

/-- Against a root that is given the program answers for that root alone. Any command line
that asks for it will do, such as the plain one. With a text that is not empty, the program
ends well exactly if the text is the root that the proof leads to, finds a mismatch exactly if
it is another hash, and fails exactly if it is no hash. The empty text is none, but with it the
program never fails: it answers for the root of the distribution. -/
theorem verify_given_root {text : String} (given : args.root = some text)
    (asks : Invocation.read line = .run ⟨settings, level, .verify args⟩)
    (ready : Ready env settings level args.distribution d before)
    (found : d.node (.text args.recipient) = .ok n) :
    (args.distribution.toList.head? ≠ some '-' →
      Invocation.read args.line = .run ⟨none, none, .verify args⟩) ∧
    (text ≠ "" →
      (ExitsWith 0 (run env line) before ↔ hashOfHex text = .ok (reached n)) ∧
      (ExitsWith 2 (run env line) before ↔
        ∃ root : Bytes, hashOfHex text = .ok root ∧ root ≠ reached n) ∧
      (ExitsWith 1 (run env line) before ↔
        ∃ fault : Hex.Fault, hashOfHex text = .error fault)) ∧
    (text = "" →
      (ExitsWith 0 (run env line) before ↔ d.root = reached n) ∧
      (ExitsWith 2 (run env line) before ↔ d.root ≠ reached n) ∧
      ¬ ExitsWith 1 (run env line) before) := by
  have ends := result_run_verify asks ready found
  rw [given] at ends
  simp only [exitsWith_iff ends]
  refine ⟨fun path => Invocation.read_line path (head?_recipient_of_node found), ?_, ?_⟩
  · intro present
    cases read : hashOfHex text with
    | error fault => simp [answer_of_fault present read, ExitStatus.code]
    | ok root =>
        obtain ⟨good, mismatch, sound⟩ := code_judgement n root
        simp [answer_of_hash present read, good, mismatch, sound]
  · rintro rfl
    have none : answer d n (some "") = judgement n d.root := rfl
    rw [none]
    exact code_judgement n d.root

end World

/-- The distribution of one record, whose leaf is the root. -/
def lone (proof : Option (List Bytes)) : Distribution :=
  ⟨(Record.ofAccount 1).leaf, 0, 20100, 1, [⟨.ofAccount 1, proof⟩]⟩

/-- The request to verify its recipient. -/
def request (root : Option String) : VerifyArguments :=
  ⟨"tree.json", (Record.ofAccount 1).recipient.toHex, root, false, false⟩

theorem node_lone (proof : Option (List Bytes)) (root : Option String) :
    (lone proof).node (.text (request root).recipient) = .ok ⟨.ofAccount 1, proof⟩ := by
  simp [Distribution.node, Key.bytes?, request, Recipient.toHex, Distribution.find?, lone]

theorem read_request (root : Option String) :
    Invocation.read (request root).line = .run ⟨none, none, .verify (request root)⟩ := by
  have path : "tree.json".toList.head? ≠ some '-' := by decide
  exact Invocation.read_line path (head?_recipient_of_node (node_lone none root))

/-- A hash that the proof leads to is confirmed. -/
theorem verify_given_root_lone :
    hashOfHex (toHex (lone (some [])).root) = .ok (lone (some [])).root ∧
      ExitsWith 0 (run [] (request (some (toHex (lone (some [])).root))).line)
        (holding (lone (some []))) := by
  have size : (lone (some [])).root.length = hashSize := Record.length_leaf _
  have read := hashOfHex_toHex size
  have present : toHex (lone (some [])).root ≠ "" := by
    intro none
    rw [none] at read
    cases read
  have given : (request (some (toHex (lone (some [])).root))).root =
      some (toHex (lone (some [])).root) := rfl
  obtain ⟨-, hashes, -⟩ :=
    verify_given_root given (read_request _) (ready_holding size) (node_lone _ _)
  obtain ⟨good, -, -⟩ := hashes present
  exact ⟨read, good.2 read⟩

/-- The empty text is no hash, and still the program ends well with it. -/
theorem verify_empty_root :
    hashOfHex "" = .error (.missingPrefix "") ∧
      ExitsWith 0 (run [] (request (some "")).line) (holding (lone (some []))) := by
  have size : (lone (some [])).root.length = hashSize := Record.length_leaf _
  have ends := result_run_verify (read_request _) (ready_holding size) (node_lone _ (some ""))
  refine ⟨rfl, (exitsWith_iff ends).2 ?_⟩
  exact (code_judgement _ _).1.2 rfl

end Vesting.Program
