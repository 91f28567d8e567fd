/-
# How a refused row is numbered

A row of a table is read from one line of its file or, if a cell in quotes goes on, from
several, and an empty line gives an empty row, which is passed over. When a row is refused, the
number that is given for its line counts rows: the header is the first, and empty rows do not
count. Main statement: it is the first row with a fault that is refused, and its number is never
above the number of the line that it starts on; it is that number exactly if the header and all
rows before it stand on one line each and none of them is empty.
-/

import Vesting.Proofs.Batch.Acceptance
import Vesting.Proofs.Loading

namespace Vesting.Csv

open Text (Utf8Fault)

/-! ## Rows and their lines -/

/-- A row with the lines that it is read from. -/
structure Block where
  lines : List Line
  row : Row

/-- The rows of the remaining lines, each with its own lines. Of the row that goes on the lines
`begun` have been read, the latest first. -/
def blocksFrom (fault : Option Utf8Fault) : List Line → Scan → List Line → List Block
  | begun, scan, [] =>
    match fault with
    | some _ => []
    | none => if scan.place == .inQuotes then [⟨begun.reverse, scan.row⟩] else []
  | begun, scan, line :: rest =>
    match scan.readLine line with
    | none => []
    | some scan =>
      if scan.place == .inQuotes then blocksFrom fault (line :: begun) scan rest
      else ⟨(line :: begun).reverse, scan.row⟩ :: blocksFrom fault [] .start rest

/-- The rows of lines with the lines that each is read from. -/
def Lines.blocks (l : Lines) : List Block := blocksFrom l.fault [] .start l.lines

theorem map_row_blocksFrom (fault : Option Utf8Fault) (begun : List Line) (scan : Scan)
    (lines : List Line) :
    (blocksFrom fault begun scan lines).map (·.row) = (readRows fault scan lines).rows := by
  induction lines generalizing begun scan with
  | nil =>
      cases fault with
      | some fault => rfl
      | none => rw [blocksFrom, readRows]; split <;> rfl
  | cons line rest ih =>
      rw [blocksFrom, readRows]
      cases scan.readLine line with
      | none => rfl
      | some next =>
          by_cases quoted : next.place == .inQuotes
          · simp only [quoted, if_true, ih]
          · simp only [quoted, Bool.false_eq_true, if_false, List.map_cons, ih]

/-- The blocks are the rows that can be read. -/
theorem map_row_blocks (l : Lines) : l.blocks.map (·.row) = (Rows.ofLines l).rows :=
  map_row_blocksFrom l.fault [] .start l.lines

/-- No line is passed over, the lines of a row that has begun included. -/
theorem blocksFrom_prefix (fault : Option Utf8Fault) (begun : List Line) (scan : Scan)
    (lines : List Line) :
    (blocksFrom fault begun scan lines).flatMap (·.lines) <+: begun.reverse ++ lines := by
  induction lines generalizing begun scan with
  | nil =>
      cases fault with
      | some fault => exact List.nil_prefix
      | none =>
          rw [blocksFrom]
          split
          · simp
          · exact List.nil_prefix
  | cons line rest ih =>
      rw [blocksFrom]
      have split : begun.reverse ++ line :: rest = (line :: begun).reverse ++ rest := by simp
      cases scan.readLine line with
      | none => exact List.nil_prefix
      | some next =>
          by_cases quoted : next.place == .inQuotes
          · simp only [quoted, if_true]
            rw [split]
            exact ih (line :: begun) next
          · simp only [quoted, Bool.false_eq_true, if_false, List.flatMap_cons]
            rw [split]
            exact (List.prefix_append_right_inj _).2 (ih [] .start)

/-- The lines of a block are read as its row and nothing else. What carries the induction is
that the lines that have begun lead to the scan, whatever follows them. -/
theorem ofLines_of_mem_blocksFrom {fault : Option Utf8Fault} {begun : List Line} {scan : Scan}
    {lines : List Line}
    (leads : ∀ more, readRows none .start (begun.reverse ++ more) = readRows none scan more)
    {b : Block} (member : b ∈ blocksFrom fault begun scan lines) :
    Rows.ofLines ⟨b.lines, none⟩ = ⟨[b.row], none⟩ := by
  induction lines generalizing begun scan with
  | nil =>
      cases fault with
      | some fault => cases member
      | none =>
          rw [blocksFrom] at member
          split at member
          · next quoted =>
              obtain rfl := List.mem_singleton.1 member
              have last := leads []
              rwa [List.append_nil, readRows, if_pos quoted] at last
          · cases member
  | cons line rest ih =>
      rw [blocksFrom] at member
      have split (more : List Line) :
          (line :: begun).reverse ++ more = begun.reverse ++ line :: more := by simp
      cases read : scan.readLine line with
      | none =>
          rw [read] at member
          cases member
      | some next =>
          by_cases quoted : next.place == .inQuotes
          · simp only [read, quoted, if_true] at member
            refine ih (fun more => ?_) member
            rw [split, leads, readRows, read]
            simp only [quoted, if_true]
          · simp only [read, quoted, Bool.false_eq_true, if_false] at member
            rcases List.mem_cons.1 member with rfl | later
            · have whole := leads [line]
              rw [← split, List.append_nil, readRows, read] at whole
              simp only [quoted, Bool.false_eq_true, if_false] at whole
              exact whole
            · exact ih (fun more => rfl) later

theorem ofLines_of_mem_blocks {l : Lines} {b : Block} (member : b ∈ l.blocks) :
    Rows.ofLines ⟨b.lines, none⟩ = ⟨[b.row], none⟩ :=
  ofLines_of_mem_blocksFrom (fun _ => rfl) member

theorem length_lines_pos {l : Lines} {b : Block} (member : b ∈ l.blocks) :
    0 < b.lines.length := by
  have whole := ofLines_of_mem_blocks member
  refine List.length_pos_iff.2 fun none => ?_
  rw [none] at whole
  cases whole

/-! ## Numbers -/

/-- The number of rows that are not empty. -/
def countFilled (blocks : List Block) : Nat := (blocks.filter fun b => !b.row.isEmpty).length

/-- The number of lines that rows are read from. -/
def countLines (blocks : List Block) : Nat := (blocks.map (·.lines.length)).sum

theorem countFilled_cons_of_empty {b : Block} (empty : b.row = []) (blocks : List Block) :
    countFilled (b :: blocks) = countFilled blocks := by
  simp [countFilled, empty]

theorem countFilled_cons_of_filled {b : Block} (filled : b.row ≠ []) (blocks : List Block) :
    countFilled (b :: blocks) = countFilled blocks + 1 := by
  simp [countFilled, filled]

/-- There are as many filled rows as lines only if each line is a filled row. -/
theorem countFilled_le_countLines {blocks : List Block}
    (positive : ∀ b ∈ blocks, 0 < b.lines.length) :
    countFilled blocks ≤ countLines blocks ∧
      (countFilled blocks = countLines blocks ↔
        ∀ b ∈ blocks, b.row ≠ [] ∧ b.lines.length = 1) := by
  induction blocks with
  | nil => exact ⟨Nat.le_refl 0, iff_of_true rfl (List.forall_mem_nil _)⟩
  | cons b blocks ih =>
      rw [List.forall_mem_cons] at positive
      obtain ⟨most, exact⟩ := ih positive.2
      have first := positive.1
      have lines : countLines (b :: blocks) = b.lines.length + countLines blocks := by
        simp [countLines]
      rw [List.forall_mem_cons, ← exact, lines]
      by_cases empty : b.row = []
      · rw [countFilled_cons_of_empty empty]
        exact ⟨by omega, by simp only [empty, ne_eq, not_true, false_and, iff_false]; omega⟩
      · rw [countFilled_cons_of_filled empty]
        exact ⟨by omega, by simp only [empty, ne_eq, not_false_eq_true, true_and]; omega⟩

/-! ## The first bad row -/

/-- How a row is refused: it is too short, or its cells form no record. -/
inductive RefusedAs (path : String) (header : Row) (line : Nat) (row : Row) : Refusal → Prop
  | short (few : recordCells header row = none) :
      RefusedAs path header line row (shortRow path line)
  | bad {cells : Fields} {rejection : Rejection} (found : recordCells header row = some cells)
      (rejected : Record.ofFields cells = .error rejection) :
      RefusedAs path header line row (badRow path line rejection)

theorem refusedAs_of_readRecord {path : String} {header row : Row} {line : Nat}
    {refusal : Refusal} (refused : readRecord path header line row = .error refusal) :
    RefusedAs path header line row refusal := by
  unfold readRecord at refused
  split at refused
  · next few =>
      cases refused
      exact .short few
  · next cells found =>
      cases read : Record.ofFields cells with
      | ok r =>
          rw [read] at refused
          cases refused
      | error rejection =>
          rw [read] at refused
          cases refused
          exact .bad found read

/-- The number of the line stands in the details, whatever the kind of the refusal. -/
theorem RefusedAs.details_line {path : String} {header row : Row} {line : Nat}
    {refusal : Refusal} (refused : RefusedAs path header line row refusal) :
    refusal.details.get? "line" = some (.int line) := by
  cases refused with
  | short few =>
      simp only [shortRow, Refusal.details, Refusal.withText]
      split <;> rfl
  | bad found rejected =>
      simp only [badRow, Refusal.details, Refusal.withText]
      split <;> rfl

/-- What a person is told about a row: the number of its line, and what is wrong with it. -/
def RowMessage (header : Row) (line : Nat) (row : Row) (message : String) : Prop :=
  (recordCells header row = none ∧ message = s!"Invalid row at line {line}: missing values") ∨
    ∃ cells rejection, recordCells header row = some cells ∧
      Record.ofFields cells = .error rejection ∧
      message = s!"Invalid row at line {line}: {rejection.issues.length} error(s)"

theorem RefusedAs.rowMessage {path : String} {header row : Row} {line : Nat}
    {refusal : Refusal} (refused : RefusedAs path header line row refusal) :
    RowMessage header line row refusal.message := by
  cases refused with
  | short few => exact .inl ⟨few, rfl⟩
  | bad found rejected => exact .inr ⟨_, _, found, rejected, rfl⟩

theorem RefusedAs.not_formsRecord {path : String} {header row : Row} {line : Nat}
    {refusal : Refusal} (refused : RefusedAs path header line row refusal) :
    ¬ FormsRecord header row := by
  rintro ⟨cells, r, found, read⟩
  cases refused with
  | short few =>
      rw [few] at found
      cases found
  | bad found' rejected =>
      rw [found'] at found
      cases found
      rw [rejected] at read
      cases read

/-- Rows are refused for the first of them, or this one forms a record and the others are
refused. -/
theorem readRecords_cons_eq_error {path : String} {header row : Row} {line : Nat}
    {rows : List Row} {refusal : Refusal}
    (refused : readRecords path header line (row :: rows) = .error refusal) :
    RefusedAs path header line row refusal ∨
      FormsRecord header row ∧ readRecords path header (line + 1) rows = .error refusal := by
  rw [readRecords] at refused
  rcases readRecord_cases path header line row with ⟨forms, r, read⟩ | ⟨-, own, read, -⟩
  · rw [read] at refused
    cases others : readRecords path header (line + 1) rows with
    | ok records =>
        simp only [others] at refused
        cases refused
    | error later =>
        simp only [others] at refused
        exact .inr ⟨forms, refused⟩
  · rw [read] at refused
    cases refused
    exact .inl (refusedAs_of_readRecord read)

/-- Of the rows below a header the first that is neither empty nor forms a record is refused,
with the number of filled rows before it. -/
theorem exists_first_bad {path : String} {header : Row} {line : Nat} {blocks : List Block}
    {refusal : Refusal}
    (refused : readRecords path header line
      ((blocks.map (·.row)).filter fun row => !row.isEmpty) = .error refusal) :
    ∃ front bad rest, blocks = front ++ bad :: rest ∧
      (∀ b ∈ front, b.row ≠ [] → FormsRecord header b.row) ∧ bad.row ≠ [] ∧
      RefusedAs path header (line + countFilled front) bad.row refusal := by
  induction blocks generalizing line with
  | nil => cases refused
  | cons b blocks ih =>
      rw [List.map_cons, List.filter_cons] at refused
      by_cases empty : b.row = []
      · rw [if_neg (by simp [empty])] at refused
        obtain ⟨front, bad, rest, rfl, good, filled, fault⟩ := ih refused
        refine ⟨b :: front, bad, rest, rfl, ?_, filled, ?_⟩
        · exact List.forall_mem_cons.2 ⟨fun other => absurd empty other, good⟩
        · rwa [countFilled_cons_of_empty empty]
      rw [if_pos (by simp [empty])] at refused
      rcases readRecords_cons_eq_error refused with fault | ⟨forms, below⟩
      · exact ⟨[], b, blocks, rfl, List.forall_mem_nil _, empty, fault⟩
      · obtain ⟨front, bad, rest, rfl, good, filled, fault⟩ := ih below
        refine ⟨b :: front, bad, rest, rfl, ?_, filled, ?_⟩
        · exact List.forall_mem_cons.2 ⟨fun _ => forms, good⟩
        · rwa [countFilled_cons_of_filled empty, Nat.add_comm (countFilled front),
            ← Nat.add_assoc]

/-! ## Files -/

variable {path : String} {content : Bytes} {refusal : Refusal}

/-- What ends the rows of a file is no refusal. -/
theorem failure_ofLines_ne_refused (l : Lines) (refusal : Refusal) :
    (Rows.ofLines l).failure ≠ some (.refused refusal) := by
  intro ends
  rcases failure_ofLines_eq_some_iff.1 ends with ⟨-, impossible⟩ | ⟨-, fault, -, impossible⟩
  · cases impossible
  · cases impossible

/-- With all columns named, a file is refused for its rows. -/
theorem readRecords_of_recordsOfFile {header : Row} {rows : List Row}
    (table : (Rows.ofLines (.ofBytes content)).rows = header :: rows)
    (complete : missingColumns header = [])
    (refused : recordsOfFile path content = .error (.refused refusal)) :
    readRecords path header 2 (rows.filter fun row => !row.isEmpty) = .error refusal := by
  have ends := failure_ofLines_ne_refused (.ofBytes content) refusal
  simp only [recordsOfFile, recordsOfRows, table, recordsBelow, complete, List.isEmpty_nil,
    Bool.not_true, Bool.false_eq_true, if_false] at refused
  split at refused
  · next own read =>
      cases refused
      exact read
  · next failure _ ends' =>
      cases refused
      exact absurd ends' ends
  · cases refused

/-- The checks of a batch never refuse a file. -/
theorem recordsOfFile_of_batchOfFile {message : String} {file : Option String} {details : Fields}
    (refused : batchOfFile path content =
      .error (.refused (.unreadableFile message file details))) :
    recordsOfFile path content = .error (.refused (.unreadableFile message file details)) := by
  unfold batchOfFile at refused
  cases read : recordsOfFile path content with
  | error failure =>
      simp only [read] at refused
      exact refused
  | ok records =>
      simp only [read] at refused
      rcases Batch.check_cases records with ⟨-, checked⟩ | ⟨own, first, checked⟩
      · rw [checked] at refused
        cases refused
      · rw [checked] at refused
        obtain ⟨i, r, -, offence, -⟩ := first
        obtain rfl := Failure.refused.inj (Except.error.inj refused)
        cases offence

/-- The number of the line that a row starts on, below the rows `above`. -/
def startLine (above : List Block) : Nat := countLines above + 1

/-- A row that is refused is the first with a fault, and it is numbered by the rows above it that
are not empty. The rows of a file are read from its lines one after another, each from its own.
Whoever reads a table whose header names all columns and is refused for its rows is told of the
first one that is neither empty nor forms a record. The number that the message and the details
give is two more than the number of filled rows between the header and this row. It is at most
the number of the line that the row starts on, and it is this number exactly if the header and
each row above stand on one line and none of them is empty. -/
theorem refused_row_counted {read : String → Bytes → Except Failure (List Record)}
    (reader : read = recordsOfFile ∨ read = batchOfFile) {header : Block} {below : List Block}
    (laid : (Lines.ofBytes content).blocks = header :: below)
    (complete : missingColumns header.row = []) {message : String} {file : Option String}
    {details : Fields}
    (refused : read path content = .error (.refused (.unreadableFile message file details))) :
    (header :: below).map (·.row) = (Rows.ofLines (.ofBytes content)).rows ∧
    (header :: below).flatMap (·.lines) <+: (Lines.ofBytes content).lines ∧
    (∀ b ∈ header :: below, Rows.ofLines ⟨b.lines, none⟩ = ⟨[b.row], none⟩) ∧
    ∃ front bad rest, below = front ++ bad :: rest ∧
      (∀ b ∈ front, b.row ≠ [] → FormsRecord header.row b.row) ∧
      bad.row ≠ [] ∧ ¬ FormsRecord header.row bad.row ∧
      RefusedAs path header.row (2 + countFilled front) bad.row
        (.unreadableFile message file details) ∧
      (Refusal.unreadableFile message file details).details.get? "line" =
        some (.int (2 + countFilled front : Nat)) ∧
      RowMessage header.row (2 + countFilled front) bad.row message ∧
      2 + countFilled front ≤ startLine (header :: front) ∧
      (2 + countFilled front = startLine (header :: front) ↔
        header.lines.length = 1 ∧ ∀ b ∈ front, b.row ≠ [] ∧ b.lines.length = 1) := by
  have ofFile : recordsOfFile path content =
      .error (.refused (.unreadableFile message file details)) := by
    rcases reader with rfl | rfl
    · exact refused
    · exact recordsOfFile_of_batchOfFile refused
  have rows : (header :: below).map (·.row) = (Rows.ofLines (.ofBytes content)).rows := by
    rw [← laid, map_row_blocks]
  have positive : ∀ b ∈ header :: below, 0 < b.lines.length := by
    rw [← laid]
    exact fun b => length_lines_pos
  refine ⟨rows, ?_, ?_, ?_⟩
  · rw [← laid]
    exact blocksFrom_prefix _ [] .start _
  · rw [← laid]
    exact fun b => ofLines_of_mem_blocks
  obtain ⟨front, bad, rest, rfl, good, filled, fault⟩ :=
    exists_first_bad (readRecords_of_recordsOfFile rows.symm complete ofFile)
  have above : ∀ b ∈ front, 0 < b.lines.length :=
    fun b member => positive b (by simp [member])
  obtain ⟨most, exact⟩ := countFilled_le_countLines above
  have first := positive header List.mem_cons_self
  have lines : startLine (header :: front) = header.lines.length + countLines front + 1 := by
    simp [startLine, countLines]
  refine ⟨front, bad, rest, rfl, good, filled, fault.not_formsRecord, fault, fault.details_line,
    fault.rowMessage, ?_, ?_⟩
  · omega
  · rw [← exact, lines]
    omega

/-- The file of a table whose only row, which is too short, stands below an empty line. -/
def gapped : Bytes := Text.toUtf8 (String.ofList (writeRow Record.columns ++ "\r\nx\r\n".toList))

/-- Its header, the empty line, and the row. -/
def gappedHeader : Block := ⟨[writeRow Record.columns], Record.columns⟩

def gap : Block := ⟨["\r\n".toList], []⟩

def lowRow : Block := ⟨["x\r\n".toList], ["x"]⟩

set_option maxRecDepth 1000 in
theorem ofBytes_gapped : Lines.ofBytes gapped =
    ⟨[writeRow Record.columns, "\r\n".toList, "x\r\n".toList], none⟩ := by
  rw [gapped, Lines.ofBytes, Text.utf8Parts_toUtf8, String.toList_ofList]
  rfl

theorem blocks_gapped : (Lines.ofBytes gapped).blocks = [gappedHeader, gap, lowRow] := by
  rw [ofBytes_gapped]
  rfl

theorem recordsOfFile_gapped :
    recordsOfFile "grants.csv" gapped = .error (.refused (shortRow "grants.csv" 2)) := by
  rw [recordsOfFile, ofBytes_gapped]
  rfl

/-- The row is refused as the first behind the header. -/
theorem refused_row_counted_gapped :
    (Lines.ofBytes gapped).blocks = [gappedHeader, gap, lowRow] ∧
      missingColumns gappedHeader.row = [] ∧
      recordsOfFile "grants.csv" gapped = .error (.refused (shortRow "grants.csv" 2)) ∧
      ∃ front bad rest, [gap, lowRow] = front ++ bad :: rest ∧ bad.row ≠ [] ∧
        RefusedAs "grants.csv" gappedHeader.row (2 + countFilled front) bad.row
          (shortRow "grants.csv" 2) ∧
        (shortRow "grants.csv" 2).details.get? "line" =
          some (.int (2 + countFilled front : Nat)) ∧
        RowMessage gappedHeader.row (2 + countFilled front) bad.row
          "Invalid row at line 2: missing values" ∧
        2 + countFilled front ≤ startLine (gappedHeader :: front) := by
  have complete : missingColumns gappedHeader.row = [] := by decide
  obtain ⟨-, -, -, front, bad, rest, below, -, filled, -, fault, line, told, most, -⟩ :=
    refused_row_counted (.inl rfl) blocks_gapped complete recordsOfFile_gapped
  exact ⟨blocks_gapped, complete, recordsOfFile_gapped, front, bad, rest, below, filled, fault,
    line, told, most⟩

/-- The row starts on the third line, and the number that is given is two. -/
theorem refused_row_off_line :
    (Lines.ofBytes gapped).blocks = [gappedHeader, gap, lowRow] ∧
      missingColumns gappedHeader.row = [] ∧
      recordsOfFile "grants.csv" gapped = .error (.refused (shortRow "grants.csv" 2)) ∧
      (shortRow "grants.csv" 2).details.get? "line" = some (.int 2) ∧
      (shortRow "grants.csv" 2).message = "Invalid row at line 2: missing values" ∧
      startLine [gappedHeader, gap] = 3 :=
  ⟨blocks_gapped, by decide, recordsOfFile_gapped, rfl, rfl, rfl⟩

end Vesting.Csv
