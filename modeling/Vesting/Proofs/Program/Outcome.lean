/-
# How programs end

In a world that changes as a state does, a program has one result and leaves one world
behind. Here is what follows for its parts: the result of one thing after another, and that
nothing which only prints or takes notes ever fails. Main statement: once the settings are
loaded and the log is open, the program ends as its command does, and what the command does
not report itself ends in a failure.
-/

import Vesting.Program.Run

namespace Vesting.Program

/-! ## Results -/

section Results

variable {W α β : Type}

/-- What something results in. -/
def result (action : ExceptT Failure (StateM W) α) (w : W) : Except Failure α :=
  (action.run.run w).1

/-- The world that something leaves behind. -/
def after (action : ExceptT Failure (StateM W) α) (w : W) : W := (action.run.run w).2

variable {action : ExceptT Failure (StateM W) α} {next : α → ExceptT Failure (StateM W) β}
  {w : W} {a : α} {failure : Failure}

/-- What was run apart is handed over with its failure. -/
theorem result_lift_run {r : Except Failure α} (ends : result action w = r) :
    result (ExceptT.lift action.run) w = .ok r :=
  congrArg Except.ok ends

theorem after_lift_run (action : ExceptT Failure (StateM W) α) (w : W) :
    after (ExceptT.lift action.run) w = after action w := rfl

/-- What stands behind something that ends well takes over its world. -/
theorem run_bind_of_ok (first : result action w = .ok a) :
    (action >>= next).run.run w = (next a).run.run (after action w) := by
  unfold result after at *
  rw [ExceptT.run_bind, StateT.run_bind]
  rcases run : action.run.run w with ⟨outcome, later⟩
  rw [run] at first
  cases first
  rfl

theorem result_bind_of_ok (first : result action w = .ok a) :
    result (action >>= next) w = result (next a) (after action w) :=
  congrArg Prod.fst (run_bind_of_ok first)

theorem after_bind_of_ok (first : result action w = .ok a) :
    after (action >>= next) w = after (next a) (after action w) :=
  congrArg Prod.snd (run_bind_of_ok first)

theorem result_bind_of_error (failed : result action w = .error failure) :
    result (action >>= next) w = .error failure := by
  unfold result at *
  rw [ExceptT.run_bind, StateT.run_bind]
  rcases run : action.run.run w with ⟨outcome, later⟩
  rw [run] at failed
  cases failed
  rfl

theorem after_bind_of_error (failed : result action w = .error failure) :
    after (action >>= next) w = after action w := by
  unfold result after at *
  rw [ExceptT.run_bind, StateT.run_bind]
  rcases run : action.run.run w with ⟨outcome, later⟩
  rw [run] at failed
  cases failed
  rfl

/-- A refusal is handed over, other failures go on. -/
theorem run_refusable (action : ExceptT Failure (StateM W) α) (w : W) :
    (refusable action).run.run w = (match result action w with
      | .ok a => .ok (.ok a)
      | .error (.refused refusal) => .ok (.error refusal)
      | .error failure => .error failure, after action w) := by
  unfold result after refusable
  rw [ExceptT.run_mk, StateT.run_bind]
  rcases action.run.run w with ⟨failure | a, later⟩
  · cases failure <;> rfl
  · rfl

theorem run_refusable_bind_of_ok (next : Except Refusal α → ExceptT Failure (StateM W) β)
    (first : result action w = .ok a) :
    (refusable action >>= next).run.run w = (next (.ok a)).run.run (after action w) := by
  rw [ExceptT.run_bind, StateT.run_bind, run_refusable, first]
  rfl

theorem run_refusable_bind_of_error (next : Except Refusal α → ExceptT Failure (StateM W) β)
    (failed : result action w = .error failure) :
    (∃ refusal, (refusable action >>= next).run.run w =
      (next (.error refusal)).run.run (after action w)) ∨
    (refusable action >>= next).run.run w = (.error failure, after action w) := by
  rw [ExceptT.run_bind, StateT.run_bind, run_refusable, failed]
  cases failure with
  | refused refusal => exact .inl ⟨refusal, rfl⟩
  | _ => exact .inr rfl

/-- What ends well has begun well. -/
theorem exists_of_result_bind_eq_ok {b : β} (ok : result (action >>= next) w = .ok b) :
    ∃ a, result action w = .ok a ∧ result (next a) (after action w) = .ok b := by
  cases first : result action w with
  | error failure => rw [result_bind_of_error first] at ok; cases ok
  | ok a => exact ⟨a, rfl, result_bind_of_ok first ▸ ok⟩

/-- Something that leads from every world to a related one, whether it fails or not. -/
def Moves (related : W → W → Prop) (action : ExceptT Failure (StateM W) α) : Prop :=
  ∀ w, related w (after action w)

/-- One thing after another leads where both lead. -/
theorem Moves.bind {related : W → W → Prop}
    (trans : ∀ {u v w}, related u v → related v w → related u w) (first : Moves related action)
    (second : ∀ a, Moves related (next a)) : Moves related (action >>= next) := by
  intro w
  cases ends : result action w with
  | error failure => rw [after_bind_of_error ends]; exact first w
  | ok a => rw [after_bind_of_ok ends]; exact trans (first w) (second a _)

/-- Handing over a value leads nowhere. -/
theorem Moves.bind_pure {related : W → W → Prop} (first : Moves related action) (f : α → β) :
    Moves related (action >>= fun a => pure (f a)) := by
  intro w
  cases ends : result action w with
  | error failure => rw [after_bind_of_error ends]; exact first w
  | ok a => rw [after_bind_of_ok ends]; exact first w

/-- Something that fails in no world. -/
def Unfailing (action : ExceptT Failure (StateM W) α) : Prop :=
  ∀ w, ∃ a, result action w = .ok a

theorem Unfailing.bind (first : Unfailing action) (later : ∀ a, Unfailing (next a)) :
    Unfailing (action >>= next) := by
  intro w
  obtain ⟨a, done⟩ := first w
  rw [result_bind_of_ok done]
  exact later a (after action w)

theorem unfailing_pure (a : α) : Unfailing (pure a : ExceptT Failure (StateM W) α) :=
  fun _ => ⟨a, rfl⟩

theorem unfailing_lift (action : StateM W α) :
    Unfailing (ExceptT.lift action : ExceptT Failure (StateM W) α) :=
  fun w => ⟨(action.run w).1, rfl⟩

theorem Unfailing.result_eq {action : ExceptT Failure (StateM W) Unit}
    (unfailing : Unfailing action) (w : W) : result action w = .ok () := by
  obtain ⟨done, ends⟩ := unfailing w
  exact ends

/-- What stands behind something that cannot fail decides. -/
theorem Unfailing.result_bind_eq {action : ExceptT Failure (StateM W) Unit}
    {next : Unit → ExceptT Failure (StateM W) β} {r : Except Failure β} (first : Unfailing action)
    (later : ∀ w, result (next ()) w = r) (w : W) : result (action >>= next) w = r := by
  obtain ⟨done, ran⟩ := first w
  rw [result_bind_of_ok ran]
  exact later (after action w)

/-- The program ends with a number. -/
def ExitsWith (code : Nat) (action : ExceptT Failure (StateM W) ExitStatus) (w : W) : Prop :=
  ∃ status : ExitStatus, result action w = .ok status ∧ status.code = code

theorem exitsWith_iff {code : Nat} {action : ExceptT Failure (StateM W) ExitStatus}
    {status : ExitStatus} (ends : result action w = .ok status) :
    ExitsWith code action w ↔ status.code = code := by
  simp [ExitsWith, ends]

/-- The program ends with one number. -/
theorem ExitsWith.code_eq {code other : Nat}
    {action : ExceptT Failure (StateM W) ExitStatus} (ends : ExitsWith code action w)
    (ends' : ExitsWith other action w) : code = other := by
  obtain ⟨status, ends, rfl⟩ := ends
  exact ((exitsWith_iff ends).1 ends')

end Results

/-! ## Prints and notes -/

section Prints

variable {W : Type} [Storage (StateM W)]

theorem unfailing_printLine (line : String) :
    Unfailing (Storage.printLine line : ExceptT Failure (StateM W) Unit) :=
  unfailing_lift _

theorem unfailing_printFields (fields : Fields) :
    Unfailing (printFields fields : ExceptT Failure (StateM W) Unit) :=
  unfailing_printLine _

theorem unfailing_printLines (lines : List String) :
    Unfailing (printLines lines : ExceptT Failure (StateM W) Unit) := by
  unfold printLines
  induction lines with
  | nil => exact unfailing_pure ()
  | cons line rest ih =>
      exact (unfailing_printLine line).bind fun _ => ih

/-- A note that cannot be added to the log file is only printed. -/
theorem unfailing_note (log : Log) (severity : Severity) (source : String)
    (message : Thunk String) :
    Unfailing (log.note severity source message : ExceptT Failure (StateM W) Unit) := by
  unfold Log.note
  split
  · refine (unfailing_lift _).bind fun _ => ?_
    cases log.file with
    | none => exact unfailing_pure ()
    | some path => exact (unfailing_lift _).bind fun _ => unfailing_pure ()
  · exact unfailing_pure ()

theorem result_reportFailure (debug : Bool) (failure : Failure) (w : W) :
    result (reportFailure debug failure : ExceptT Failure (StateM W) ExitStatus) w =
      .ok .failure := by
  cases debug <;> rfl

end Prints

/-! ## Runs -/

/-- How the program ends with the outcome of a command. -/
def statusOf : Except Failure ExitStatus → ExitStatus
  | .ok status => status
  | .error _ => .failure

/-- Whatever has been changed on the way, a refusal that is handed over to a failure is one. -/
theorem statusOf_of_error {W α : Type} {action : ExceptT Failure (StateM W) α}
    {next : Except Refusal α → ExceptT Failure (StateM W) ExitStatus} {w : W} {failure : Failure}
    (failed : result action w = .error failure)
    (handled : ∀ refusal w, statusOf (result (next (.error refusal)) w) = .failure) :
    statusOf (result (refusable action >>= next) w) = .failure := by
  obtain ⟨refusal, run⟩ | run := run_refusable_bind_of_error next failed
  · rw [result, run]
    exact handled refusal (after action w)
  · rw [result, run]
    rfl

section Runs

variable {W : Type} [Storage (StateM W)]

/-- The settings and the log that a command runs with. -/
def startUp (env : Environment) (settings level : Option String) :
    ExceptT Failure (StateM W) (Settings × Log) := do
  let s ← loadSettings env settings
  let log ← Log.start level s.log
  return (s, log)

variable {env : Environment} {i : Invocation} {s : Settings} {log : Log} {w : W}

/-- What is left to do with the outcome of a command: a failure is reported. -/
def conclude (debug : Bool) : Except Failure ExitStatus → ExceptT Failure (StateM W) ExitStatus
  | .ok status => return status
  | .error failure => reportFailure debug failure

theorem run_invoke (started : result (startUp env i.settings i.level) w = .ok (s, log)) :
    (invoke env i : ExceptT Failure (StateM W) ExitStatus).run.run w =
      (conclude i.command.debug (result (command log s i.command)
        (after (startUp env i.settings i.level) w))).run.run
        (after (command log s i.command) (after (startUp env i.settings i.level) w)) := by
  obtain ⟨settings, loaded, rest⟩ := exists_of_result_bind_eq_ok started
  obtain ⟨opened, opens, done⟩ := exists_of_result_bind_eq_ok rest
  cases done
  have later : after (startUp env i.settings i.level) w =
      after (Log.start i.level s.log) (after (loadSettings env i.settings) w) := by
    rw [startUp, after_bind_of_ok loaded, after_bind_of_ok opens]
    rfl
  rw [invoke, run_bind_of_ok (result_lift_run loaded), after_lift_run]
  dsimp only
  rw [run_bind_of_ok opens, ← later, run_bind_of_ok (result_lift_run rfl), after_lift_run]
  cases result (command log s i.command) (after (startUp env i.settings i.level) w) <;> rfl

/-- Once the settings are loaded and the log is open, a command line ends as the command that
it asks for. -/
theorem result_run {line : List String} (asks : Invocation.read line = .run i)
    (started : result (startUp env i.settings i.level) w = .ok (s, log)) :
    result (run env line) w =
      .ok (statusOf (result (command log s i.command)
        (after (startUp env i.settings i.level) w))) := by
  rw [run, asks, result, run_invoke started]
  cases result (command log s i.command) (after (startUp env i.settings i.level) w) with
  | ok status => rfl
  | error failure => exact result_reportFailure _ _ _

/-- So the program exits with the number of the command's status. -/
theorem exitsWith_run {line : List String} {status : ExitStatus}
    (asks : Invocation.read line = .run i)
    (started : result (startUp env i.settings i.level) w = .ok (s, log))
    (ends : statusOf (result (command log s i.command)
      (after (startUp env i.settings i.level) w)) = status) :
    ExitsWith status.code (run env line) w :=
  ⟨_, result_run asks started, congrArg ExitStatus.code ends⟩

theorem after_run {line : List String} (asks : Invocation.read line = .run i)
    (started : result (startUp env i.settings i.level) w = .ok (s, log)) :
    after (run env line) w =
      after (conclude i.command.debug (result (command log s i.command)
        (after (startUp env i.settings i.level) w)) : ExceptT Failure (StateM W) ExitStatus)
        (after (command log s i.command) (after (startUp env i.settings i.level) w)) := by
  rw [run, asks]
  exact congrArg Prod.snd (run_invoke started)

end Runs

end Vesting.Program
