/-
# Tables of records

The first row of a table names its columns, and a record is read from the cells under the
nine names of a record's fields, whatever their order and whatever else the table holds.
Of a repeated name the last column counts. Empty rows are passed over without being
counted; every other row has to have a cell for each field, and the cells, without the
white space around them, have to form a record. The first row that does not ends the
reading.
-/

import Vesting.Batch
import Vesting.Csv.Rows
import Vesting.Csv.Writer
import Vesting.Record.Reading

namespace Vesting.Csv

/-- The place of the last column with a name. -/
def column? (header : Row) (name : String) : Option Nat :=
  (header.reverse.findIdx? (· == name)).map (header.length - 1 - ·)

def cell? (header row : Row) (name : String) : Option String :=
  match column? header name with
  | some index => row[index]?
  | none => none

/-- The names of a record's fields that a header lacks. -/
def missingColumns (header : Row) : List String :=
  Record.columns.filter fun name => !header.contains name

/-- A cell without the white space around it. -/
def strip (s : String) : String := String.ofList (Text.trim Text.isBlank s.toList)

/-- The cells of a record's fields; nothing if the row is too short. -/
def recordCells (header row : Row) : Option Fields :=
  Record.columns.mapM fun name => (cell? header row name).map fun s => (name, .text (strip s))

/-- The refusal of a file that does not exist. -/
def notFound (path : String) : Refusal :=
  .unreadableFile s!"CSV file not found: {path}" (some path) []

/-- The refusal of a table without some columns. -/
def withoutColumns (path : String) (names : List String) : Refusal :=
  .unreadableFile ("CSV file is missing columns: " ++ ", ".intercalate names) (some path) []

/-- The refusal of a row that is too short. -/
def shortRow (path : String) (line : Nat) : Refusal :=
  .unreadableFile s!"Invalid row at line {line}: missing values" (some path)
    [("line", .int line)]

/-- The refusal of a row whose cells form no record. -/
def badRow (path : String) (line : Nat) (r : Rejection) : Refusal :=
  .unreadableFile s!"Invalid row at line {line}: {r.issues.length} error(s)" (some path)
    [("line", .int line), ("errors", .list (r.issues.map Value.ofIssue))]

def readRecord (path : String) (header : Row) (line : Nat) (row : Row) :
    Except Refusal Record :=
  match recordCells header row with
  | none => .error (shortRow path line)
  | some fields => (Record.ofFields fields).mapError (badRow path line)

/-- The records in rows, of which the first counts as line `line`. -/
def readRecords (path : String) (header : Row) : Nat → List Row → Except Refusal (List Record)
  | _, [] => .ok []
  | line, row :: rest =>
    match readRecord path header line row with
    | .error refusal => .error refusal
    | .ok record => (readRecords path header (line + 1) rest).map (record :: ·)

/-- The records in the rows below a header. A failure behind the last row that could be
read shows only if all rows before it are good. -/
def recordsBelow (path : String) (header : Row) (rows : List Row) (failure : Option Failure) :
    Except Failure (List Record) :=
  let missing := missingColumns header
  if !missing.isEmpty then .error (.refused (withoutColumns path missing))
  else
    match readRecords path header 2 (rows.filter fun row => !row.isEmpty), failure with
    | .error refusal, _ => .error (.refused refusal)
    | .ok _, some failure => .error failure
    | .ok records, none => .ok records

/-- The records of a table. A table without rows has a header without names. -/
def recordsOfRows (path : String) (table : Rows) : Except Failure (List Record) :=
  match table.rows, table.failure with
  | [], some failure => .error failure
  | [], none => recordsBelow path [] [] none
  | header :: rows, failure => recordsBelow path header rows failure

/-- The records of the table file at a path. -/
def recordsOfFile (path : String) (content : Bytes) : Except Failure (List Record) :=
  recordsOfRows path (.ofLines (.ofBytes content))

/-- The records of the table file at a path, checked as a batch. -/
def batchOfFile (path : String) (content : Bytes) : Except Failure (List Record) :=
  match recordsOfFile path content with
  | .error failure => .error failure
  | .ok records =>
    match Batch.check records with
    | .error refusal => .error (.refused refusal)
    | .ok () => .ok records

def recordRow (r : Record) : Row :=
  [r.recipient.toHex, toString r.start.toNat, toString r.cliff.toNat, toString r.frequency.toNat,
    toString r.cliffAmount.toNat, toString r.periodAmount.toNat, toString r.periods.toNat,
    toString r.updateMode.toNat, toString r.cancelMode.toNat]

def tableOf (records : List Record) : String :=
  writeTable (Record.columns :: records.map recordRow)

end Vesting.Csv
