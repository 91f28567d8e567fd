/-
# What commands do to a world

In a file system, a command reads files, takes notes, prints, and at most keeps one
distribution. Notes go to the log file and the messages, so a path that the log spares, as
every path does if there is no log file, has the same entry before and after. `Reports` says
this of an action together with the text that it adds to the results; it is derived from
what is done one after another, whether or not something fails on the way.

What the actions result in depends on the files that they read alone.
-/

import Vesting.Proofs.FileSystem
import Vesting.Proofs.Program.Outcome

namespace Vesting

namespace FileSystem

variable {W : Type} [Storage (StateM W)] (fs : FileSystem W)

/-- What goes to the log leaves what there is at a path. -/
def Spared (log : Log) (path : Path) : Prop := ∀ file, log.file = some file → fs.Apart file path

/-- There is a file at a path, and something is read of it. -/
def ReadsAs {α : Type} (w : W) (path : Path)
    (read : String → Bytes → Except Failure α) (a : α) : Prop :=
  ∃ content, fs.find? w path = some (.file content) ∧ read path.toString content = .ok a

/-- From one world to a later one only notes have been taken, and a text has been added to the
results. -/
structure Adds (log : Log) (text : String) (w later : W) : Prop where
  files : ∀ path, fs.Spared log path → fs.find? later path = fs.find? w path
  results : fs.printed later = fs.printed w ++ text

variable {fs} {log : Log} {text more : String} {w mid later : W}

theorem ReadsAs.of_find?_eq {α : Type} {path : Path} {read : String → Bytes → Except Failure α}
    {a : α} (reads : fs.ReadsAs w path read a) (same : fs.find? later path = fs.find? w path) :
    fs.ReadsAs later path read a := by
  obtain ⟨content, present, ok⟩ := reads
  exact ⟨content, same.trans present, ok⟩

theorem Adds.refl (w : W) : fs.Adds log "" w w := ⟨fun _ _ => rfl, String.append_empty.symm⟩

theorem Adds.trans (first : fs.Adds log text w mid) (second : fs.Adds log more mid later) :
    fs.Adds log (text ++ more) w later where
  files path spared := (second.files path spared).trans (first.files path spared)
  results := by rw [second.results, first.results, String.append_assoc]

end FileSystem

namespace Program

variable {W α β : Type} [Storage (StateM W)] {fs : FileSystem W} {log : Log}
  {text more : String}

/-! ## Notes and prints -/

/-- In every world an action only takes notes and adds a text to the results, whether it fails
or not. -/
def Reports (fs : FileSystem W) (log : Log) (text : String)
    (action : ExceptT Failure (StateM W) α) : Prop :=
  Moves (fs.Adds log text) action

variable {action : ExceptT Failure (StateM W) α} {next : α → ExceptT Failure (StateM W) β}

theorem reports_outcome (r : Except Failure α) :
    Reports fs log "" (outcome r : ExceptT Failure (StateM W) α) := fun w => .refl w

theorem reports_pure (a : α) : Reports fs log "" (pure a : ExceptT Failure (StateM W) α) :=
  fun w => .refl w

/-- What prints nothing may be followed by anything that prints nothing. -/
theorem Reports.bind (first : Reports fs log "" action)
    (second : ∀ a, Reports fs log "" (next a)) : Reports fs log "" (action >>= next) :=
  Moves.bind FileSystem.Adds.trans first second

/-- What prints nothing and ends well is followed by what comes next. -/
theorem adds_bind {w : W} {a : α} (first : fs.Adds log "" w (after action w))
    (ends : result action w = .ok a)
    (second : fs.Adds log more (after action w) (after (next a) (after action w))) :
    fs.Adds log more w (after (action >>= next) w) := by
  rw [after_bind_of_ok ends]
  have both := first.trans second
  rwa [String.empty_append] at both

/-- What cannot fail is followed by what comes next. -/
theorem Reports.append {action : ExceptT Failure (StateM W) Unit}
    {next : Unit → ExceptT Failure (StateM W) β} (unfailing : Unfailing action)
    (first : Reports fs log text action) (second : Reports fs log more (next ())) :
    Reports fs log (text ++ more) (action >>= next) := by
  intro w
  obtain ⟨done, ends⟩ := unfailing w
  rw [after_bind_of_ok ends]
  exact (first w).trans (second _)

theorem reports_printLine (line : String) : Reports fs log (line ++ "\n")
    (Storage.printLine line : ExceptT Failure (StateM W) Unit) := by
  intro w
  obtain ⟨files, results⟩ := fs.prints (line ++ "\n") w
  exact ⟨fun path _ => congrFun files path, results⟩

theorem reports_complainLine (line : String) :
    Reports fs log "" (Storage.complainLine line : ExceptT Failure (StateM W) Unit) := by
  intro w
  obtain ⟨files, results⟩ := fs.complains (line ++ "\n") w
  exact ⟨fun path _ => congrFun files path, results.trans String.append_empty.symm⟩

theorem reports_complainAndFail (message : String) :
    Reports fs log "" (complainAndFail message : ExceptT Failure (StateM W) ExitStatus) :=
  Moves.bind_pure (reports_complainLine message) _

theorem reports_reportFailure (debug : Bool) (failure : Failure) :
    Reports fs log "" (reportFailure debug failure :
      ExceptT Failure (StateM W) ExitStatus) := by
  cases debug <;> exact reports_complainAndFail _

/-- The text of lines that are printed. -/
def textOf : List String → String
  | [] => ""
  | line :: rest => line ++ "\n" ++ textOf rest

theorem reports_printLines (lines : List String) :
    Reports fs log (textOf lines) (printLines lines : ExceptT Failure (StateM W) Unit) := by
  unfold printLines
  induction lines with
  | nil => exact reports_pure ()
  | cons line rest ih => exact (reports_printLine line).append (unfailing_printLine line) ih

/-- The text of a report, as JSON or in words. -/
def reportText (json : Bool) (fields : Fields) (lines : List String) : String :=
  if json then (Value.object fields).toJson .report ++ "\n" else textOf lines

/-- A report tells a value: as a field of its JSON, or in words as a line. -/
def Tells (json : Bool) (report name : String) (value : Value) (line : String) : Prop :=
  if json then
    ∃ fields : Fields, report = (Value.object fields).toJson .report ++ "\n" ∧
      fields.get? name = some value
  else ∃ lines, report = textOf lines ∧ line ∈ lines

theorem tells_reportText {json : Bool} {fields : Fields} {lines : List String}
    {name line : String} {value : Value} (field : fields.get? name = some value)
    (listed : line ∈ lines) : Tells json (reportText json fields lines) name value line := by
  cases json with
  | true => exact ⟨fields, rfl, field⟩
  | false => exact ⟨lines, rfl, listed⟩

/-- Print a report, as JSON or in words, and end. -/
def tell (json : Bool) (fields : Fields) (lines : List String) (status : ExitStatus) :
    ExceptT Failure (StateM W) ExitStatus := do
  if json then printFields fields else printLines lines
  return status

theorem result_tell (json : Bool) (fields : Fields) (lines : List String) (status : ExitStatus)
    (w : W) : result (tell json fields lines status) w = .ok status := by
  cases json with
  | true => exact (unfailing_printFields fields).result_bind_eq (fun _ => rfl) w
  | false => exact (unfailing_printLines lines).result_bind_eq (fun _ => rfl) w

theorem reports_tell (fs : FileSystem W) (log : Log) (json : Bool) (fields : Fields)
    (lines : List String) (status : ExitStatus) :
    Reports fs log (reportText json fields lines)
      (tell json fields lines status : ExceptT Failure (StateM W) ExitStatus) := by
  cases json with
  | true => exact Moves.bind_pure (reports_printLine _) _
  | false => exact Moves.bind_pure (reports_printLines lines) _

theorem reports_note (severity : Severity) (source : String) (message : Thunk String) :
    Reports fs log "" (log.note severity source message : ExceptT Failure (StateM W) Unit) := by
  have complains (text : String) :
      Reports fs log "" (ExceptT.lift (Storage.complain text) :
        ExceptT Failure (StateM W) Unit) := by
    intro w
    obtain ⟨files, results⟩ := fs.complains text w
    exact ⟨fun path _ => congrFun files path, results.trans String.append_empty.symm⟩
  unfold Log.note
  split
  · refine (complains _).bind fun _ => ?_
    cases file : log.file with
    | none => exact reports_pure ()
    | some path =>
        intro w
        exact ⟨fun other spared => (spared path file).appends _ w,
          (fs.appendsSilently path _ w).trans String.append_empty.symm⟩
  · exact reports_pure ()

/-! ## Failures -/

/-- Something ends in a failure, and no file has been changed but the log. -/
structure Fails (fs : FileSystem W) (log : Log) (action : ExceptT Failure (StateM W) ExitStatus)
    (w : W) : Prop where
  status : statusOf (result action w) = .failure
  adds : ∃ text, fs.Adds log text w (after action w)

section Failures

variable {w : W} {failure : Failure} {a : α}
  {next : Except Refusal α → ExceptT Failure (StateM W) ExitStatus}

theorem fails_complainAndFail (message : String) (w : W) :
    Fails fs log (complainAndFail message) w :=
  ⟨rfl, "", reports_complainAndFail message w⟩

/-- A refusal is a failure if what it is handed over to fails; other failures are anyway. -/
theorem fails_of_error (quiet : fs.Adds log "" w (after action w))
    (failed : result action w = .error failure)
    (handled : ∀ refusal w, Fails fs log (next (.error refusal)) w) :
    Fails fs log (refusable action >>= next) w := by
  obtain ⟨refusal, run⟩ | run := run_refusable_bind_of_error next failed
  · obtain ⟨status, text, adds⟩ := handled refusal (after action w)
    rw [result] at status
    rw [after] at adds
    exact ⟨by rw [result, run]; exact status, _, by rw [after, run]; exact quiet.trans adds⟩
  · exact ⟨by rw [result, run]; rfl, "", by rw [after, run]; exact quiet⟩

/-- What follows something that adds at most notes fails as a whole if it fails. -/
theorem Fails.bind {first : ExceptT Failure (StateM W) β}
    {next : β → ExceptT Failure (StateM W) ExitStatus} {b : β}
    (quiet : fs.Adds log "" w (after first w)) (ends : result first w = .ok b)
    (fails : Fails fs log (next b) (after first w)) : Fails fs log (first >>= next) w := by
  obtain ⟨status, text, adds⟩ := fails
  exact ⟨by rw [result_bind_of_ok ends]; exact status, _,
    by rw [after_bind_of_ok ends]; exact quiet.trans adds⟩

theorem fails_of_ok (quiet : fs.Adds log "" w (after action w))
    (first : result action w = .ok a) (fails : Fails fs log (next (.ok a)) (after action w)) :
    Fails fs log (refusable action >>= next) w := by
  have run := run_refusable_bind_of_ok next first
  obtain ⟨status, text, adds⟩ := fails
  rw [result] at status
  rw [after] at adds
  exact ⟨by rw [result, run]; exact status, _, by rw [after, run]; exact quiet.trans adds⟩

end Failures

/-! ## Loading -/

/-- Loading changes nothing, and what is loaded is the content of a file. -/
theorem run_load (fs : FileSystem W) (path : Path) (w : W) : ∃ r,
    (Storage.load path : ExceptT Failure (StateM W) (Option Bytes)).run.run w = (r, w) ∧
      ∀ content : Bytes, r = .ok (some content) ↔ fs.find? w path = some (.file content) := by
  have kind : (liftM (Storage.kind? path : StateM W (Option FileKind)) :
      ExceptT Failure (StateM W) (Option FileKind)).run.run w =
        (.ok ((fs.find? w path).map Entry.kind), w) :=
    congrArg (fun ran : Option FileKind × W => (Except.ok ran.1, ran.2)) (fs.looks path w)
  obtain ⟨r, read, content⟩ := fs.reads path w
  have reads : (ExceptT.mk (Storage.atPath path.toString <$> Storage.read path) :
      ExceptT Failure (StateM W) Bytes).run.run w = (Storage.atPath path.toString r, w) :=
    congrArg (fun ran : Except FileFault Bytes × W => (Storage.atPath path.toString ran.1, ran.2))
      read
  rw [Storage.load, ExceptT.run_bind, StateT.run_bind, kind]
  cases present : fs.find? w path with
  | none => exact ⟨.ok none, rfl, by simp⟩
  | some e =>
      refine ⟨(Storage.atPath path.toString r).map some, ?_, ?_⟩
      · show (ExceptT.mk (Storage.atPath path.toString <$> Storage.read path) >>= fun content =>
          return some content : ExceptT Failure (StateM W) (Option Bytes)).run.run w = _
        rw [ExceptT.run_bind, StateT.run_bind, reads]
        cases r <;> rfl
      · intro bytes
        rw [← present, ← content bytes]
        cases r <;> constructor <;> intro same <;> cases same
        all_goals rfl

/-- The content of a file as it is read, if there is a file. -/
def reading (path : Path) (missing : Failure) (read : Bytes → Except Failure α) :
    ExceptT Failure (StateM W) α := do
  match ← Storage.load path with
  | none => throw missing
  | some content => outcome (read content)

section Reading

variable {path : Path} {missing : Failure} {read : Bytes → Except Failure α} {a : α} {w : W}
  {content : Bytes}

/-- What is read of a file is decided by its content. -/
theorem result_reading (present : fs.find? w path = some (.file content)) :
    result (reading path missing read) w = read content := by
  obtain ⟨r, run, loaded⟩ := run_load fs path w
  have loads : result (Storage.load path) w = .ok (some content) := by
    rw [result, run]
    exact (loaded content).2 present
  rw [reading, result_bind_of_ok loads]
  rfl

/-- Something is read exactly if there is a file that it is read of. -/
theorem result_reading_eq_ok_iff (fs : FileSystem W) :
    result (reading path missing read) w = .ok a ↔
      ∃ content, fs.find? w path = some (.file content) ∧ read content = .ok a := by
  constructor
  · intro ok
    obtain ⟨r, run, loaded⟩ := run_load fs path w
    obtain ⟨content?, loads, rest⟩ := exists_of_result_bind_eq_ok ok
    cases content? with
    | none => cases rest
    | some content =>
        rw [result, run] at loads
        exact ⟨content, (loaded content).1 loads, rest⟩
  · rintro ⟨content, present, reads⟩
    rw [result_reading present, reads]

theorem after_reading (fs : FileSystem W) (path : Path) (missing : Failure)
    (read : Bytes → Except Failure α) (w : W) : after (reading path missing read) w = w := by
  obtain ⟨r, run, -⟩ := run_load fs path w
  have unchanged : after (Storage.load path : ExceptT Failure (StateM W) (Option Bytes)) w = w := by
    rw [after, run]
  unfold reading
  cases loads : result (Storage.load path : ExceptT Failure (StateM W) (Option Bytes)) w with
  | error failure => rw [after_bind_of_error loads, unchanged]
  | ok content? =>
      rw [after_bind_of_ok loads, unchanged]
      cases content? <;> rfl

end Reading

/-- Distributions, tables and settings are loaded in the same way. -/
theorem run_load_distribution (fs : FileSystem W) (path : Path) (w : W) :
    after (Distribution.load path : ExceptT Failure (StateM W) Distribution) w = w ∧
      ∀ d : Distribution, result (Distribution.load path) w = .ok d ↔
        fs.ReadsAs w path Distribution.ofFile d := by
  have same : (Distribution.load path : ExceptT Failure (StateM W) Distribution) =
      reading path (.refused (Distribution.notFound path.toString))
        (Distribution.ofFile path.toString) := rfl
  rw [same]
  exact ⟨after_reading fs _ _ _ w, fun d => result_reading_eq_ok_iff fs⟩

theorem run_load_table (fs : FileSystem W) (read : String → Bytes → Except Failure (List Record))
    (path : Path) (w : W) :
    after (Csv.loadWith read path : ExceptT Failure (StateM W) (List Record)) w = w ∧
      ∀ records : List Record, result (Csv.loadWith read path) w = .ok records ↔
        fs.ReadsAs w path read records := by
  have same : (Csv.loadWith read path : ExceptT Failure (StateM W) (List Record)) =
      reading path (.refused (Csv.notFound path.toString)) (read path.toString) := rfl
  rw [same]
  exact ⟨after_reading fs _ _ _ w, fun records => result_reading_eq_ok_iff fs⟩

theorem after_load_settings (fs : FileSystem W) (path : Path) (w : W) :
    after (Settings.load path : ExceptT Failure (StateM W) Settings) w = w := by
  have same : (Settings.load path : ExceptT Failure (StateM W) Settings) =
      reading path (.settings (.missingFile path.toString)) Settings.ofContent := rfl
  rw [same]
  exact after_reading fs _ _ _ w

/-! ## Building and planning -/

/-- What is noted about a tree is one note or none. -/
theorem noteTree_cases (log : Log) (records : List Record) :
    (noteTree log records : ExceptT Failure (StateM W) Unit) = pure () ∨
      ∃ severity source message, (noteTree log records : ExceptT Failure (StateM W) Unit) =
        log.note severity source message := by
  unfold noteTree
  split
  · cases Batch.tree records with
    | error failure => exact .inl rfl
    | ok tree => exact .inr ⟨_, _, _, rfl⟩
  · exact .inl rfl

theorem noteChecked_cases (log : Log) (records : List Record) :
    (noteChecked log records : ExceptT Failure (StateM W) Unit) = pure () ∨
      ∃ severity source message, (noteChecked log records : ExceptT Failure (StateM W) Unit) =
        log.note severity source message := by
  unfold noteChecked
  split
  · cases Batch.check records with
    | error refusal => exact .inl rfl
    | ok checked => exact noteTree_cases log records
  · exact .inl rfl

theorem unfailing_of_note_cases {action : ExceptT Failure (StateM W) Unit}
    (cases : action = pure () ∨ ∃ severity source message,
      action = log.note severity source message) : Unfailing action := by
  obtain rfl | ⟨severity, source, message, rfl⟩ := cases
  · exact unfailing_pure ()
  · exact unfailing_note log severity source message

theorem reports_of_note_cases {action : ExceptT Failure (StateM W) Unit}
    (cases : action = pure () ∨ ∃ severity source message,
      action = log.note severity source message) : Reports fs log "" action := by
  obtain rfl | ⟨severity, source, message, rfl⟩ := cases
  · exact reports_pure ()
  · exact reports_note severity source message

theorem reports_build (records : List Record) (version : Value) :
    Reports fs log "" (build log records version : ExceptT Failure (StateM W) Distribution) := by
  unfold build
  refine (reports_of_note_cases (noteChecked_cases log records)).bind fun _ => ?_
  refine (reports_outcome _).bind fun d => ?_
  refine (reports_note _ _ _).bind fun _ => ?_
  refine (reports_of_note_cases (noteTree_cases log _)).bind fun _ => ?_
  exact Moves.bind_pure (reports_outcome _) _

/-- The notes that are taken do not change what is built. -/
theorem result_build (log : Log) (records : List Record) (version : Value) (w : W) :
    result (build log records version) w = Distribution.buildAs records version := by
  unfold build
  refine (unfailing_of_note_cases (noteChecked_cases log records)).result_bind_eq (fun w => ?_) w
  rw [Distribution.buildAs]
  cases assembled : Distribution.assembleAs records version with
  | error failure => rfl
  | ok d =>
      have done : result (outcome (.ok d) : ExceptT Failure (StateM W) Distribution) w = .ok d :=
        rfl
      rw [result_bind_of_ok done]
      refine (unfailing_note log _ _ _).result_bind_eq (fun w => ?_) _
      refine (unfailing_of_note_cases (noteTree_cases log _)).result_bind_eq (fun w => ?_) w
      dsimp only
      cases valid : d.validate with
      | error refusal => rfl
      | ok valid => rfl

theorem reports_planNoting (current : Distribution) (new : List Record) (version : Value) :
    Reports fs log "" (planNoting log current new version :
      ExceptT Failure (StateM W) Amendment) := by
  unfold planNoting
  refine (reports_build new version).bind fun d => ?_
  refine (reports_outcome _).bind fun a => ?_
  exact Moves.bind_pure (reports_note _ _ _) _

theorem result_planNoting (log : Log) (current : Distribution) (new : List Record)
    (version : Value) (w : W) : result (planNoting log current new version) w =
      Amendment.planAs current.root new version (some current.records) := by
  unfold planNoting Amendment.planAs
  have built := result_build log new version w
  cases same : Distribution.buildAs new version with
  | error failure => rw [same] at built; exact result_bind_of_error built
  | ok d =>
      rw [same] at built
      rw [result_bind_of_ok built]
      dsimp only
      cases planned : Amendment.toward current.root d new (some current.records) with
      | error refusal => rfl
      | ok a => exact (unfailing_note log _ _ _).result_bind_eq (fun _ => rfl) _

/-! ## Keeping -/

/-- What there was is still there, and nothing has been printed. -/
structure Grows (fs : FileSystem W) (w later : W) : Prop where
  entries : ∀ path e, fs.find? w path = some e → fs.find? later path = some e
  results : fs.printed later = fs.printed w

theorem Grows.refl (w : W) : Grows fs w w := ⟨fun _ _ => id, rfl⟩

theorem Grows.trans {w mid later : W} (first : Grows fs w mid) (second : Grows fs mid later) :
    Grows fs w later where
  entries path e present := second.entries path e (first.entries path e present)
  results := second.results.trans first.results

theorem grows_ensureDirectory (path : Path) :
    Moves (Grows fs) (Storage.ensureDirectory path : ExceptT Failure (StateM W) Unit) := by
  have made : Moves (Grows fs) (liftM (Storage.makeDirectory path : StateM W _) :
      ExceptT Failure (StateM W) (Except FileFault Unit)) :=
    fun w => ⟨fun _ _ => fs.keeps, fs.createsSilently path w⟩
  have looked : Moves (Grows fs) (liftM (Storage.kind? path : StateM W _) :
      ExceptT Failure (StateM W) (Option FileKind)) := by
    intro w
    have same : after (liftM (Storage.kind? path : StateM W _) :
        ExceptT Failure (StateM W) (Option FileKind)) w = w :=
      congrArg Prod.snd (fs.looks path w)
    rw [same]
    exact .refl w
  unfold Storage.ensureDirectory
  refine made.bind Grows.trans fun r => ?_
  split
  · exact .refl
  · exact .refl
  · refine looked.bind Grows.trans fun kind => ?_
    split
    · exact .refl
    · exact .refl

theorem grows_makeDirectories (fs : FileSystem W) (root : String) (parts : List String) :
    Moves (Grows fs)
      (Storage.makeDirectories root parts : ExceptT Failure (StateM W) Unit) := by
  induction parts with
  | nil => exact grows_ensureDirectory _
  | cons part above ih =>
      have tried : Moves (Grows fs) (ExceptT.lift (Storage.ensureDirectory
          ⟨root, (part :: above).reverse⟩ : ExceptT Failure (StateM W) Unit).run) :=
        grows_ensureDirectory _
      unfold Storage.makeDirectories
      refine tried.bind Grows.trans fun r => ?_
      split
      · exact .refl
      · exact ih.bind Grows.trans fun _ => grows_ensureDirectory _
      · exact .refl

section Create

variable {path other : Path} {content : Bytes} {w : W} {e : Entry}

theorem run_write (path : Path) (content : Bytes) (w : W) :
    (ExceptT.mk (Storage.atPath path.toString <$> Storage.write path content) :
      ExceptT Failure (StateM W) Unit).run.run w =
        (Storage.atPath path.toString ((Storage.write path content : StateM W _).run w).1,
          ((Storage.write path content : StateM W _).run w).2) := rfl

/-- The directories are there first, and then the file may be written. -/
theorem after_create_cases (fs : FileSystem W) (path : Path) (content : Bytes) (w : W) :
    ∃ mid, Grows fs w mid ∧ (after (Storage.create path content) w = mid ∨
      after (Storage.create path content) w =
        ((Storage.write path content : StateM W _).run mid).2) := by
  have grown := grows_makeDirectories fs path.parent.root path.parent.parts.reverse w
  cases made : result (Storage.makeDirectories path.parent.root path.parent.parts.reverse :
      ExceptT Failure (StateM W) Unit) w with
  | error failure => exact ⟨_, grown, .inl (after_bind_of_error made)⟩
  | ok done => exact ⟨_, grown, .inr (after_bind_of_ok made)⟩

/-- A file that was created has its content. -/
theorem find?_create (fs : FileSystem W)
    (created : result (Storage.create path content) w = .ok ()) :
    fs.find? (after (Storage.create path content) w) path = some (.file content) := by
  obtain ⟨made, directories, written⟩ := exists_of_result_bind_eq_ok created
  rw [Storage.create, after_bind_of_ok directories]
  rw [result, run_write] at written
  rw [after, run_write]
  generalize after _ w = mid at *
  rcases ran : (Storage.write path content : StateM W _).run mid with ⟨fault | done, later⟩
  · rw [ran] at written
    cases written
  · exact fs.writes ran

/-- What there is at another path stays when a file is created. -/
theorem find?_create_of_apart (apart : fs.Apart path other)
    (present : fs.find? w other = some e) :
    fs.find? (after (Storage.create path content) w) other = some e := by
  obtain ⟨mid, grown, same | written⟩ := after_create_cases fs path content w
  · rw [same]
    exact grown.entries other e present
  · rw [written, apart.writes content mid]
    exact grown.entries other e present

theorem printed_create (fs : FileSystem W) (path : Path) (content : Bytes) (w : W) :
    fs.printed (after (Storage.create path content) w) = fs.printed w := by
  obtain ⟨mid, grown, same | written⟩ := after_create_cases fs path content w
  · rw [same, grown.results]
  · rw [written, fs.writesSilently, grown.results]

/-! ### Distributions -/

variable {d : Distribution}

theorem result_keep (log : Log) (path : Path) (w : W) :
    result (keep log d path) w = result (Storage.create path (Text.toUtf8 d.toText)) w := by
  unfold keep Distribution.save
  cases created : result (Storage.create path (Text.toUtf8 d.toText)) w with
  | error failure => exact result_bind_of_error created
  | ok done =>
      rw [result_bind_of_ok created]
      exact (unfailing_note log _ _ _).result_eq _

/-- Behind keeping a distribution, notes are taken. -/
theorem adds_keep (fs : FileSystem W) (log : Log) (d : Distribution) (path : Path) (w : W) :
    fs.Adds log "" (after (Storage.create path (Text.toUtf8 d.toText)) w)
      (after (keep log d path) w) := by
  unfold keep Distribution.save
  cases created : result (Storage.create path (Text.toUtf8 d.toText)) w with
  | error failure => rw [after_bind_of_error created]; exact .refl _
  | ok done => rw [after_bind_of_ok created]; exact reports_note _ _ _ _

/-- A distribution that was kept lies in its file. -/
theorem find?_keep (fs : FileSystem W) {out : Path} (kept : result (keep log d out) w = .ok ())
    (spared : fs.Spared log out) :
    fs.find? (after (keep log d out) w) out = some (.file (Text.toUtf8 d.toText)) := by
  rw [result_keep] at kept
  rw [(adds_keep fs log d out w).files out spared, find?_create fs kept]

/-- Keeping it leaves what there is elsewhere. -/
theorem find?_keep_of_apart {out : Path} (apart : fs.Apart out other)
    (spared : fs.Spared log other) (present : fs.find? w other = some e) :
    fs.find? (after (keep log d out) w) other = some e := by
  rw [(adds_keep fs log d out w).files other spared, find?_create_of_apart apart present]

theorem printed_keep (fs : FileSystem W) (log : Log) (d : Distribution) (out : Path) (w : W) :
    fs.printed (after (keep log d out) w) = fs.printed w := by
  rw [(adds_keep fs log d out w).results, printed_create, String.append_empty]

/-- A file can be created at a path, whatever notes are taken before. -/
def Writable (fs : FileSystem W) (log : Log) (path : Path) (w : W) : Prop :=
  ∀ later, fs.Adds log "" w later → ∀ content : Bytes,
    result (Storage.create path content : ExceptT Failure (StateM W) Unit) later = .ok ()

/-- Where a file can be created, a distribution is kept. -/
theorem Writable.result_keep {out : Path} {mid : W} (writable : Writable fs log out w)
    (noted : fs.Adds log "" w mid) (d : Distribution) : result (keep log d out) mid = .ok () := by
  rw [Program.result_keep]
  exact writable mid noted _

theorem Writable.of_adds {out : Path} {mid : W} (writable : Writable fs log out w)
    (noted : fs.Adds log "" w mid) : Writable fs log out mid :=
  fun later adds => writable later (noted.trans adds)

end Create

/-! ## Runs -/

section Runs

variable {env : Environment} {settings level : Option String} {s : Settings} {w : W}

theorem after_loadSettings (fs : FileSystem W) (env : Environment) (settings : Option String)
    (w : W) : after (loadSettings env settings) w = w := by
  cases settings with
  | none => rfl
  | some path =>
      have unchanged := after_load_settings fs (.ofString path) w
      unfold loadSettings
      cases loads : result (Settings.load (.ofString path) :
          ExceptT Failure (StateM W) Settings) w with
      | error failure => rw [after_bind_of_error loads, unchanged]
      | ok s => rw [after_bind_of_ok loads, unchanged]; rfl

/-- A log file is created by adding nothing to it. -/
theorem after_createFile {path : Path} (created : result (Log.createFile path) w = .ok ()) :
    after (Log.createFile path) w = ((Storage.append path [] : StateM W _).run w).2 := by
  have appended : result (liftM (Storage.append path [] : StateM W _) :
      ExceptT Failure (StateM W) (Except FileFault Unit)) w =
        .ok ((Storage.append path [] : StateM W _).run w).1 := rfl
  unfold Log.createFile at *
  rw [result_bind_of_ok appended] at created
  rw [after_bind_of_ok appended]
  cases ends : ((Storage.append path [] : StateM W _).run w).1 with
  | ok done => rfl
  | error fault => rw [ends] at created; cases created

theorem file_ofLevel {name : String} {file : Option Path}
    (known : Log.ofLevel name file = .ok log) : log.file = file := by
  unfold Log.ofLevel at known
  split at known <;> cases known
  rfl

/-- Opening the log changes no file that it spares. -/
theorem adds_startLog (fs : FileSystem W) {ls : LogSettings}
    (opened : result (Log.start level ls) w = .ok log) :
    fs.Adds log "" w (after (Log.start level ls) w) := by
  unfold Log.start at *
  cases asked : Log.levelOf level ls.level with
  | error fault => rw [asked] at opened; cases opened
  | ok name =>
      simp only [asked] at opened ⊢
      cases named : Log.fileOf ls.file with
      | error fault => rw [named] at opened; cases opened
      | ok file =>
          cases file with
          | none => exact .refl w
          | some path =>
              simp only [named] at opened
              obtain ⟨created, opens, known⟩ := exists_of_result_bind_eq_ok opened
              simp only [after_bind_of_ok opens]
              have same := after_createFile opens
              exact ⟨fun other spared => same ▸ (spared path (file_ofLevel known)).appends [] w,
                same ▸ (fs.appendsSilently path [] w).trans String.append_empty.symm⟩

/-- So the program starts without changing a file that the log spares. -/
theorem adds_startUp (fs : FileSystem W)
    (started : result (startUp env settings level) w = .ok (s, log)) :
    fs.Adds log "" w (after (startUp env settings level) w) := by
  obtain ⟨loaded, loads, rest⟩ := exists_of_result_bind_eq_ok started
  obtain ⟨opened, opens, done⟩ := exists_of_result_bind_eq_ok rest
  cases done
  rw [startUp, after_bind_of_ok loads, after_bind_of_ok opens, after_loadSettings fs]
  rw [after_loadSettings fs] at opens
  exact adds_startLog fs opens

/-- Behind the command, at most a failure is reported. -/
theorem adds_run (fs : FileSystem W) {line : List String} {i : Invocation}
    (asks : Invocation.read line = .run i)
    (started : result (startUp env i.settings i.level) w = .ok (s, log)) :
    fs.Adds log "" (after (command log s i.command) (after (startUp env i.settings i.level) w))
      (after (run env line) w) := by
  rw [after_run asks started]
  cases result (command log s i.command) (after (startUp env i.settings i.level) w) with
  | ok status => exact .refl _
  | error failure => exact reports_reportFailure _ _ _

/-- A command that fails lets the program fail, and no file is changed but the log. -/
theorem run_of_fails {line : List String} {i : Invocation}
    (asks : Invocation.read line = .run i)
    (started : result (startUp env i.settings i.level) w = .ok (s, log))
    (fails : Fails fs log (command log s i.command) (after (startUp env i.settings i.level) w)) :
    ExitsWith 1 (run env line) w ∧
      ∀ path, fs.Spared log path → fs.find? (after (run env line) w) path = fs.find? w path := by
  obtain ⟨status, text, adds⟩ := fails
  constructor
  · exact exitsWith_run asks started status
  · have whole := ((adds_startUp fs started).trans adds).trans (adds_run fs asks started)
    exact whole.files

end Runs

/-! ## Volumes -/

/-- Without a log file no file is changed by notes. -/
theorem spared_of_no_file (none : log.file = none) (path : Path) : fs.Spared log path := by
  intro file there
  rw [none] at there
  cases there

/-- In the working directory of a volume a file can be created unless a directory is there. -/
theorem writable_volume {v : Volume} {name : String} (plain : name ≠ "..")
    (none : log.file = none) (free : v.find? ⟨"", [name]⟩ ≠ some .directory) :
    Writable Volume.fileSystem log ⟨"", [name]⟩ v := by
  intro later adds content
  have same : later.find? ⟨"", [name]⟩ = v.find? ⟨"", [name]⟩ :=
    adds.files _ (spared_of_no_file none _)
  have leads : later.locate ⟨"", [name]⟩ = .ok (.below [name]) := by
    have down : (name != "..") = true := by simpa using plain
    show Volume.follow later [] [name] = _
    rw [Volume.follow]
    simp [Volume.entry?, down, Volume.follow]
  have directories : result (Storage.makeDirectories "" [] :
      ExceptT Failure (StateM Volume) Unit) later = .ok () := rfl
  have unchanged : after (Storage.makeDirectories "" [] :
      ExceptT Failure (StateM Volume) Unit) later = later := rfl
  have found : later.find? ⟨"", [name]⟩ = later.entry? [name] := by
    rw [Volume.find?, leads]
  rw [← same, found] at free
  have written : (later.update ⟨"", [name]⟩ fun _ => content).1 = .ok () := by
    rw [Volume.update, leads]
    dsimp only
    rcases entry : later.entry? [name] with - | ⟨old⟩ | -
    · rfl
    · rfl
    · exact absurd entry free
  unfold Storage.create
  refine (result_bind_of_ok directories).trans ?_
  rw [unchanged]
  exact congrArg (Storage.atPath _) written

end Program

end Vesting
