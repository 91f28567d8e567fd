/-
# Records come from rows

A table that is accepted has a header, and each of its records is what the cells of one row
form, row by row and in order; rows without cells give none. Main statement:
`exists_of_recordsOfFile`.
-/

import Mathlib.Data.List.Forall2
import Vesting.Csv.Records

namespace Vesting

namespace Csv

theorem exists_of_readRecord {path : String} {header row : Row} {line : Nat} {r : Record}
    (accepted : readRecord path header line row = .ok r) :
    ∃ cells, recordCells header row = some cells ∧ Record.ofFields cells = .ok r := by
  unfold readRecord at accepted
  split at accepted
  · cases accepted
  next cells found =>
    refine ⟨cells, found, ?_⟩
    cases reads : Record.ofFields cells with
    | error _ =>
        rw [reads] at accepted
        cases accepted
    | ok s =>
        rw [reads] at accepted
        cases accepted
        rfl

/-- Each row gives its record. -/
theorem forall₂_of_readRecords {path : String} {header : Row} {line : Nat} {rows : List Row}
    {records : List Record} (accepted : readRecords path header line rows = .ok records) :
    List.Forall₂ (fun row r =>
      ∃ cells, recordCells header row = some cells ∧ Record.ofFields cells = .ok r)
      rows records := by
  induction rows generalizing line records with
  | nil =>
      cases accepted
      exact .nil
  | cons row rows ih =>
      unfold readRecords at accepted
      split at accepted
      · cases accepted
      next r first =>
        cases others : readRecords path header (line + 1) rows with
        | error _ =>
            rw [others] at accepted
            cases accepted
        | ok rest =>
            rw [others] at accepted
            cases accepted
            exact .cons (exists_of_readRecord first) (ih others)

theorem readRecords_of_recordsBelow {path : String} {header : Row} {rows : List Row}
    {failure : Option Failure} {records : List Record}
    (accepted : recordsBelow path header rows failure = .ok records) :
    readRecords path header 2 (rows.filter fun row => !row.isEmpty) = .ok records := by
  unfold recordsBelow at accepted
  cases complete : (missingColumns header).isEmpty with
  | false => simp [complete] at accepted
  | true =>
      simp only [complete, Bool.not_true, Bool.false_eq_true, if_false] at accepted
      split at accepted
      · cases accepted
      · cases accepted
      next found =>
        cases accepted
        exact found

/-- The records of a table come from the rows below its header that are not empty. -/
theorem exists_of_recordsOfFile {path : String} {content : Bytes} {records : List Record}
    (accepted : recordsOfFile path content = .ok records) :
    ∃ header rows, (Rows.ofLines (.ofBytes content)).rows = header :: rows ∧
      List.Forall₂ (fun row r =>
        ∃ cells, recordCells header row = some cells ∧ Record.ofFields cells = .ok r)
        (rows.filter fun row => !row.isEmpty) records := by
  unfold recordsOfFile recordsOfRows at accepted
  cases table : (Rows.ofLines (.ofBytes content)).rows with
  | nil =>
      cases failure : (Rows.ofLines (.ofBytes content)).failure <;>
        simp [table, failure, recordsBelow, missingColumns, Record.columns] at accepted
  | cons header rows =>
      simp only [table] at accepted
      exact ⟨header, rows, rfl, forall₂_of_readRecords (readRecords_of_recordsBelow accepted)⟩

end Csv

end Vesting
