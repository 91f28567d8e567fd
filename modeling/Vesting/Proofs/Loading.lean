/-
# What loading announces

Whoever loads a distribution or a table is told that the file is refused if it is missing or
malformed. Main statement: for an existing file this is so for every content but two kinds.
Bytes that are no UTF-8 make either loader fail in another way, and so does a cell longer than
the longest one that is read in a table; in a table it shows only if nothing that could be read
before is refused.

Distributions are read as a whole. In a table the rows are looked at as they are read, so
their failure is decided apart from what the rows are: `Csv.RowsPass` is about these,
`Csv.failure_ofLines_eq_some_iff` about the failure.
-/

import Vesting.Proofs.Csv.Acceptance
import Vesting.Proofs.Csv.Limit
import Vesting.Proofs.Program.Effects
import Vesting.Proofs.Text.Utf8

namespace Vesting

/-! ## Outcomes -/

/-- A refusal of the file at a path. -/
def Refusal.IsOfFile (path : String) : Refusal → Prop
  | .unreadableFile _ named _ => named = some path
  | _ => False

/-- What is announced of a loader: that it gives what it loads, or refuses the file. -/
def Announced {α : Type} (path : String) : Except Failure α → Prop
  | .ok _ => True
  | .error (.refused refusal) => refusal.IsOfFile path
  | .error _ => False

variable {path : String} {content : Bytes}

/-! ## Distributions -/

namespace Distribution

theorem announced_ofFile_iff : Announced path (ofFile path content) ↔ Text.IsUtf8 content := by
  rw [Text.isUtf8_iff, ofFile, Text.ofUtf8]
  rcases Text.utf8Prefix content with ⟨cs, _ | fault⟩
  · refine iff_of_true ?_ rfl
    dsimp only
    cases ofJson (String.ofList cs) with
    | ok d => exact trivial
    | error rejection => exact rfl
  · exact iff_of_false id (Option.some_ne_none fault)

theorem ofFile_eq_notText_iff {fault : Text.Utf8Fault} :
    ofFile path content = .error (.notText fault) ↔ (Text.utf8Prefix content).2 = some fault := by
  rw [ofFile, Text.ofUtf8]
  rcases Text.utf8Prefix content with ⟨cs, _ | found⟩
  · cases read : ofJson (String.ofList cs) with
    | ok d => simp [Except.mapError, read]
    | error rejection => simp [Except.mapError, read]
  · simp

end Distribution

/-! ## Tables -/

namespace Csv

variable {header : Row} {rows : List Row}

/-- Some cells of a row form a record. -/
def FormsRecord (header row : Row) : Prop :=
  ∃ cells r, recordCells header row = some cells ∧ Record.ofFields cells = .ok r

theorem readRecord_cases (path : String) (header : Row) (line : Nat) (row : Row) :
    (FormsRecord header row ∧ ∃ r, readRecord path header line row = .ok r) ∨
      ¬FormsRecord header row ∧
        ∃ refusal, readRecord path header line row = .error refusal ∧ refusal.IsOfFile path := by
  unfold readRecord FormsRecord
  cases found : recordCells header row with
  | none => exact .inr ⟨by simp, _, rfl, rfl⟩
  | some cells =>
      cases read : Record.ofFields cells with
      | ok r => exact .inl ⟨⟨cells, r, rfl, read⟩, r, by simp only [read]; rfl⟩
      | error rejection =>
          exact .inr ⟨by simp [read], badRow path line rejection, by simp only [read]; rfl, rfl⟩

/-- Rows are read if each forms a record, and otherwise the file is refused. -/
theorem readRecords_cases (path : String) (header : Row) (line : Nat) (rows : List Row) :
    ((∀ row ∈ rows, FormsRecord header row) ∧
        ∃ records, readRecords path header line rows = .ok records) ∨
      (¬∀ row ∈ rows, FormsRecord header row) ∧
        ∃ refusal, readRecords path header line rows = .error refusal ∧
          refusal.IsOfFile path := by
  induction rows generalizing line with
  | nil => exact .inl ⟨nofun, [], rfl⟩
  | cons row rows ih =>
      rw [List.forall_mem_cons, readRecords]
      rcases readRecord_cases path header line row with
        ⟨forms, r, first⟩ | ⟨bad, refusal, first, ofFile⟩
      · rw [first, and_iff_right forms]
        rcases ih (line + 1) with ⟨all, records, rest⟩ | ⟨bad, refusal, rest, ofFile⟩
        · exact .inl ⟨all, r :: records, by simp only [rest]; rfl⟩
        · exact .inr ⟨bad, refusal, by simp only [rest]; rfl, ofFile⟩
      · rw [first]
        exact .inr ⟨fun all => bad all.1, refusal, rfl, ofFile⟩

/-- Nothing in the rows of a table is refused: the first names every column, and each other one
is empty or forms a record. -/
def RowsPass : List Row → Prop
  | [] => True
  | header :: rows =>
    missingColumns header = [] ∧ ∀ row ∈ rows, row ≠ [] → FormsRecord header row

theorem rowsPass_cons : RowsPass (header :: rows) ↔ missingColumns header = [] ∧
    ∀ row ∈ rows.filter fun row => !row.isEmpty, FormsRecord header row := by
  simp [RowsPass, List.mem_filter]

/-- Where nothing is refused, the failure behind the rows shows if there is one. -/
theorem recordsBelow_cases (path : String) (header : Row) (rows : List Row)
    (failure : Option Failure) :
    (RowsPass (header :: rows) ∧ ∃ records,
        recordsBelow path header rows failure = failure.elim (.ok records) .error) ∨
      ¬RowsPass (header :: rows) ∧ ∃ refusal,
        recordsBelow path header rows failure = .error (.refused refusal) ∧
          refusal.IsOfFile path := by
  rw [rowsPass_cons]
  unfold recordsBelow
  cases missing : missingColumns header with
  | cons name names => exact .inr ⟨by simp, _, rfl, rfl⟩
  | nil =>
      simp only [List.isEmpty_nil, Bool.not_true, Bool.false_eq_true, if_false, true_and]
      rcases readRecords_cases path header 2 (rows.filter fun row => !row.isEmpty) with
        ⟨all, records, read⟩ | ⟨bad, refusal, read, ofFile⟩
      · rw [read]
        exact .inl ⟨all, records, by cases failure <;> rfl⟩
      · rw [read]
        exact .inr ⟨bad, refusal, by cases failure <;> rfl, ofFile⟩

theorem recordsOfRows_of_rowsPass (pass : RowsPass rows) (failure : Failure) :
    recordsOfRows path ⟨rows, some failure⟩ = .error failure := by
  cases rows with
  | nil => rfl
  | cons header rows =>
      rcases recordsBelow_cases path header rows (some failure) with ⟨-, records, read⟩ | ⟨bad, -⟩
      · exact read
      · exact absurd pass bad

/-- Without a failure behind rows that pass, records are read or the file is refused. -/
theorem announced_recordsOfRows {failure : Option Failure}
    (whole : RowsPass rows → failure = none) :
    Announced path (recordsOfRows path ⟨rows, failure⟩) := by
  cases rows with
  | nil =>
      obtain rfl : failure = none := whole trivial
      exact rfl
  | cons header rows =>
      show Announced path (recordsBelow path header rows failure)
      rcases recordsBelow_cases path header rows failure with
        ⟨pass, records, read⟩ | ⟨-, refusal, read, ofFile⟩
      · rw [read, whole pass]
        exact trivial
      · rw [read]
        exact ofFile

/-! ### Contents -/

theorem fault_ofBytes_eq_none_iff :
    (Lines.ofBytes content).fault = none ↔ Text.IsUtf8 content := by
  rw [← Text.utf8Parts_snd_eq_none_iff partSize, Lines.ofBytes]
  rcases Text.utf8Parts partSize content with ⟨cs, _ | fault⟩
  · exact iff_of_true rfl rfl
  · exact iff_of_false (Option.some_ne_none _) (Option.some_ne_none fault)

/-- The rows that can be read of a file. -/
def rowsOf (content : Bytes) : List Row := (Rows.ofLines (.ofBytes content)).rows

theorem recordsOfFile_of_failure (pass : RowsPass (rowsOf content)) {failure : Failure}
    (ends : (Rows.ofLines (.ofBytes content)).failure = some failure) :
    recordsOfFile path content = .error failure := by
  have table : Rows.ofLines (.ofBytes content) = ⟨rowsOf content, some failure⟩ := by
    rw [← ends, rowsOf]
  rw [recordsOfFile, table]
  exact recordsOfRows_of_rowsPass pass failure

theorem recordsOfFile_of_hasLongCell (pass : RowsPass (rowsOf content))
    (long : (Lines.ofBytes content).HasLongCell) :
    recordsOfFile path content = .error (.cellTooLong longestCell) :=
  recordsOfFile_of_failure pass (failure_ofLines_eq_some_iff.2 (.inl ⟨long, rfl⟩))

theorem recordsOfFile_of_fault (pass : RowsPass (rowsOf content))
    (fits : ¬(Lines.ofBytes content).HasLongCell) {fault : Text.Utf8Fault}
    (broken : (Lines.ofBytes content).fault = some fault) :
    recordsOfFile path content = .error (.notText fault) :=
  recordsOfFile_of_failure pass (failure_ofLines_eq_some_iff.2 (.inr ⟨fits, fault, broken, rfl⟩))

theorem announced_recordsOfFile_iff :
    Announced path (recordsOfFile path content) ↔
      ¬(RowsPass (rowsOf content) ∧
        ((Lines.ofBytes content).HasLongCell ∨ ¬Text.IsUtf8 content)) := by
  constructor
  · rintro announced ⟨pass, broken⟩
    by_cases long : (Lines.ofBytes content).HasLongCell
    · rw [recordsOfFile_of_hasLongCell pass long] at announced
      exact announced
    · rw [or_iff_right long, ← fault_ofBytes_eq_none_iff] at broken
      obtain ⟨fault, broken⟩ := Option.ne_none_iff_exists'.1 broken
      rw [recordsOfFile_of_fault pass long broken] at announced
      exact announced
  · intro whole
    refine announced_recordsOfRows fun pass => ?_
    by_contra ends
    obtain ⟨failure, ends⟩ := Option.ne_none_iff_exists'.1 ends
    rcases failure_ofLines_eq_some_iff.1 ends with ⟨long, -⟩ | ⟨-, fault, broken, -⟩
    · exact whole ⟨pass, .inl long⟩
    · refine whole ⟨pass, .inr fun isText => ?_⟩
      rw [fault_ofBytes_eq_none_iff.2 isText] at broken
      cases broken

end Csv

/-! ## Files -/

namespace Program

variable {W : Type} [Storage (StateM W)] {w : W} {path : Path} {content : Bytes}

theorem result_load_distribution (fs : FileSystem W)
    (present : fs.find? w path = some (.file content)) :
    result (Distribution.load path : ExceptT Failure (StateM W) Distribution) w =
      Distribution.ofFile path.toString content := by
  have same : (Distribution.load path : ExceptT Failure (StateM W) Distribution) =
      reading path (.refused (Distribution.notFound path.toString))
        (Distribution.ofFile path.toString) := rfl
  rw [same, result_reading present]

theorem result_load_table (fs : FileSystem W)
    (present : fs.find? w path = some (.file content)) :
    result (Csv.load path : ExceptT Failure (StateM W) (List Record)) w =
      Csv.recordsOfFile path.toString content := by
  have same : (Csv.load path : ExceptT Failure (StateM W) (List Record)) =
      reading path (.refused (Csv.notFound path.toString))
        (Csv.recordsOfFile path.toString) := rfl
  rw [same, result_reading present]

/-- What loading announces. An existing file whose content is UTF-8 gives a distribution or is
refused, and otherwise the place is reported where the content stops being text. An existing
file gives the records of a table or is refused but for two cases, which show only if the rows
that could be read pass: a cell is too long, which is reported first, or the content is no
UTF-8. -/
theorem loading_announced_iff (fs : FileSystem W)
    (present : fs.find? w path = some (.file content)) :
    (Announced path.toString (result (Distribution.load path) w) ↔ Text.IsUtf8 content) ∧
    (∀ fault, result (Distribution.load path) w = .error (.notText fault) ↔
      (Text.utf8Prefix content).2 = some fault) ∧
    (Announced path.toString (result (Csv.load path) w) ↔
      ¬(Csv.RowsPass (Csv.rowsOf content) ∧
        ((Csv.Lines.ofBytes content).HasLongCell ∨ ¬Text.IsUtf8 content))) ∧
    (Csv.RowsPass (Csv.rowsOf content) → (Csv.Lines.ofBytes content).HasLongCell →
      result (Csv.load path) w = .error (.cellTooLong Csv.longestCell)) ∧
    ∀ fault, Csv.RowsPass (Csv.rowsOf content) → ¬(Csv.Lines.ofBytes content).HasLongCell →
      (Csv.Lines.ofBytes content).fault = some fault →
        result (Csv.load path) w = .error (.notText fault) := by
  rw [result_load_distribution fs present, result_load_table fs present]
  refine ⟨Distribution.announced_ofFile_iff, fun fault => Distribution.ofFile_eq_notText_iff,
    Csv.announced_recordsOfFile_iff, Csv.recordsOfFile_of_hasLongCell, ?_⟩
  intro fault pass fits broken
  exact Csv.recordsOfFile_of_fault pass fits broken

/-- A volume that holds one file. -/
def oneFile (content : Bytes) : Volume := ⟨"", [(["in.csv"], .file content)], "", ""⟩

/-- A text that is one cell with one character more than the longest that is read. -/
def longWord : String := String.ofList (List.replicate (Csv.longestCell + 1) 'a')

/-- The file of this text is refused as a distribution, while as a table it is not. -/
theorem loading_announced_iff_longWord :
    Volume.fileSystem.find? (oneFile (Text.toUtf8 longWord)) ⟨"", ["in.csv"]⟩ =
        some (.file (Text.toUtf8 longWord)) ∧
      Announced "in.csv"
        (result (Distribution.load ⟨"", ["in.csv"]⟩) (oneFile (Text.toUtf8 longWord))) ∧
      result (Csv.load ⟨"", ["in.csv"]⟩) (oneFile (Text.toUtf8 longWord)) =
        .error (.cellTooLong 131072) := by
  have characters : longWord.toList = List.replicate (Csv.longestCell + 1) 'a' :=
    String.toList_ofList
  have plain : ∀ c ∈ longWord.toList, Csv.isSpecial c = false := by
    rw [characters]
    intro c member
    rw [List.eq_of_mem_replicate member]
    rfl
  have long : Csv.longestCell < longWord.toList.length := by
    rw [characters, List.length_replicate]
    exact Nat.lt_succ_self _
  have lines : Csv.Lines.ofBytes (Text.toUtf8 longWord) = ⟨[longWord.toList], none⟩ :=
    Csv.ofBytes_of_plain plain (List.ne_nil_of_length_pos (Nat.zero_lt_of_lt long))
  have grows : Csv.Scan.start.Overgrows longWord.toList := by
    simpa using Csv.Scan.overgrows_start plain long []
  have pass : Csv.RowsPass (Csv.rowsOf (Text.toUtf8 longWord)) := by
    rw [Csv.rowsOf, lines, Csv.ofLines_of_overgrows grows]
    exact trivial
  have present : Volume.fileSystem.find? (oneFile (Text.toUtf8 longWord)) ⟨"", ["in.csv"]⟩ =
      some (.file (Text.toUtf8 longWord)) := rfl
  obtain ⟨distribution, -, -, table, -⟩ := loading_announced_iff Volume.fileSystem present
  refine ⟨present, distribution.2 ⟨longWord, rfl⟩, table pass ?_⟩
  rw [lines]
  exact .inl grows

/-- A byte that is no text makes either loader fail in a way that is not announced. -/
theorem loading_not_announced :
    Volume.fileSystem.find? (oneFile [0xff]) ⟨"", ["in.csv"]⟩ = some (.file [0xff]) ∧
      result (Distribution.load ⟨"", ["in.csv"]⟩) (oneFile [0xff]) =
        .error (.notText ⟨0xff, 0, 1, .invalidStart⟩) ∧
      result (Csv.load ⟨"", ["in.csv"]⟩) (oneFile [0xff]) =
        .error (.notText ⟨0xff, 0, 1, .invalidStart⟩) ∧
      (¬∀ content : Bytes,
        Announced "in.csv" (result (Distribution.load ⟨"", ["in.csv"]⟩) (oneFile content))) ∧
      ¬∀ content : Bytes,
        Announced "in.csv" (result (Csv.load ⟨"", ["in.csv"]⟩) (oneFile content)) := by
  have distribution : result (Distribution.load ⟨"", ["in.csv"]⟩) (oneFile [0xff]) =
      .error (.notText ⟨0xff, 0, 1, .invalidStart⟩) := rfl
  have present : Volume.fileSystem.find? (oneFile [0xff]) ⟨"", ["in.csv"]⟩ =
      some (.file [0xff]) := rfl
  have lines : Csv.Lines.ofBytes [0xff] = ⟨[], some ⟨0xff, 0, 1, .invalidStart⟩⟩ := by cbv
  have table : result (Csv.load ⟨"", ["in.csv"]⟩) (oneFile [0xff]) =
      .error (.notText ⟨0xff, 0, 1, .invalidStart⟩) := by
    rw [result_load_table Volume.fileSystem present, Csv.recordsOfFile, lines]
    rfl
  refine ⟨present, distribution, table, fun announced => ?_, fun announced => ?_⟩
  · have outcome := announced [0xff]
    rwa [distribution] at outcome
  · have outcome := announced [0xff]
    rwa [table] at outcome

end Program

end Vesting
