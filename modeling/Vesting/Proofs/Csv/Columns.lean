/-
# Columns are found by their names

A record is read from the cells under the names of its fields. So a table may have its columns
in any order and further ones among them. Main statement: moving the columns, header and rows
alike, and putting in others with names of their own does not change what is read, be it the
records or the refusal of a row.

A table is taken apart into columns and put together from others; that the two undo each other
is where its rows have to be as long as its header.
-/

import Mathlib.Data.List.FinRange
import Vesting.Proofs.Csv.Records

namespace Vesting.Csv

/-! ## Columns -/

/-- A column of a table with `n` rows below its header: its name, and its cell in each row. -/
structure Column (n : Nat) where
  name : String
  cell : Fin n → String

variable {n : Nat} {columns : List (Column n)} {c : Column n}

/-- The table that has some columns side by side. -/
def sideBySide (columns : List (Column n)) : List Row :=
  columns.map (·.name) :: (List.finRange n).map fun i => columns.map (·.cell i)

/-- The columns of a table whose rows are as long as its header. -/
def columnsOf (header : Row) (rows : List Row) : List (Column rows.length) :=
  (List.range header.length).map fun j =>
    ⟨header.getD j "", fun i => (rows.get i).getD j ""⟩

theorem map_getD_range {row : Row} {length : Nat} (long : row.length = length) :
    (List.range length).map (fun j => row.getD j "") = row := by
  subst long
  apply List.ext_getElem
  · simp
  · intro j inside inside'
    simp [List.getElem?_eq_getElem inside']

theorem map_name_columnsOf (header : Row) (rows : List Row) :
    (columnsOf header rows).map (·.name) = header := by
  rw [columnsOf, List.map_map]
  exact map_getD_range rfl

/-- A table is its columns side by side. -/
theorem sideBySide_columnsOf {header : Row} {rows : List Row}
    (rectangular : ∀ row ∈ rows, row.length = header.length) :
    sideBySide (columnsOf header rows) = header :: rows := by
  have row (i : Fin rows.length) : (columnsOf header rows).map (·.cell i) = rows.get i := by
    rw [columnsOf, List.map_map]
    exact map_getD_range (rectangular _ (List.get_mem rows i))
  rw [sideBySide, map_name_columnsOf]
  simp only [row, List.map_get_finRange]

/-! ## Cells -/

theorem column?_of_not_mem {name : String} {front rest : Row} (last : name ∉ rest) :
    column? (front ++ name :: rest) name = some front.length := by
  have behind : rest.reverse.findIdx? (· == name) = none := by
    rw [List.findIdx?_eq_none_iff]
    intro other member
    rw [beq_eq_false_iff_ne]
    rintro rfl
    exact last (List.mem_reverse.1 member)
  have found : (front ++ name :: rest).reverse.findIdx? (· == name) = some rest.length := by
    rw [List.reverse_append, List.reverse_cons, List.append_assoc, List.findIdx?_append, behind]
    simp [List.findIdx?_cons]
  rw [column?, found, Option.map_some, List.length_append, List.length_cons]
  congr 1
  omega

/-- The cell of a row under a name that only one column has is the one of this column. -/
theorem cell?_of_mem (member : c ∈ columns) (once : (columns.map (·.name)).count c.name = 1)
    (i : Fin n) :
    cell? (columns.map (·.name)) (columns.map (·.cell i)) c.name = some (c.cell i) := by
  obtain ⟨front, rest, rfl⟩ := List.append_of_mem member
  have last : c.name ∉ rest.map (·.name) := by
    rw [← List.count_eq_zero]
    rw [List.map_append, List.map_cons, List.count_append, List.count_cons_self] at once
    omega
  rw [cell?, List.map_append, List.map_cons, column?_of_not_mem last]
  simp

/-! ## Rows -/

/-- Each name of a record's fields is the name of one column. -/
def NamesOnce (header : Row) : Prop := ∀ name ∈ Record.columns, header.count name = 1

theorem missingColumns_of_namesOnce {header : Row} (once : NamesOnce header) :
    missingColumns header = [] := by
  refine List.filter_eq_nil_iff.2 fun name member => ?_
  have present : name ∈ header := List.count_pos_iff.1 (once name member ▸ Nat.one_pos)
  simpa using present

/-- Of a row nothing but the cells under the names of a record's fields counts. -/
theorem recordCells_congr {header header' row row' : Row}
    (same : ∀ name ∈ Record.columns, cell? header' row' name = cell? header row name) :
    recordCells header' row' = recordCells header row := by
  unfold recordCells
  generalize Record.columns = names at same ⊢
  induction names with
  | nil => rfl
  | cons name names ih =>
      rw [List.forall_mem_cons] at same
      rw [List.mapM_cons, List.mapM_cons, same.1, ih same.2]

/-- The fields of a record are read from the same columns wherever these are. -/
theorem recordCells_of_subset {wider : List (Column n)}
    (once : NamesOnce (columns.map (·.name))) (once' : NamesOnce (wider.map (·.name)))
    (kept : columns ⊆ wider) (i : Fin n) :
    recordCells (wider.map (·.name)) (wider.map (·.cell i)) =
      recordCells (columns.map (·.name)) (columns.map (·.cell i)) := by
  refine recordCells_congr fun name member => ?_
  have present : name ∈ columns.map (·.name) :=
    List.count_pos_iff.1 (once name member ▸ Nat.one_pos)
  obtain ⟨c, here, rfl⟩ := List.mem_map.1 present
  rw [cell?_of_mem here (once _ member), cell?_of_mem (kept here) (once' _ member)]

theorem readRecords_congr (path : String) {header header' : Row} {row row' : Fin n → Row}
    (same : ∀ i, recordCells header' (row' i) = recordCells header (row i)) (line : Nat)
    (places : List (Fin n)) :
    readRecords path header' line (places.map row') =
      readRecords path header line (places.map row) := by
  induction places generalizing line with
  | nil => rfl
  | cons i places ih => simp only [List.map_cons, readRecords, readRecord, same, ih]

/-- No row is empty if there are columns. -/
theorem filter_rows (columns : List (Column n)) (some : columns ≠ []) (places : List (Fin n)) :
    (places.map fun i => columns.map (·.cell i)).filter (fun row => !row.isEmpty) =
      places.map fun i => columns.map (·.cell i) := by
  rw [List.filter_eq_self]
  intro row member
  obtain ⟨i, -, rfl⟩ := List.mem_map.1 member
  simpa using some

theorem ne_nil_of_namesOnce (once : NamesOnce (columns.map (·.name))) : columns ≠ [] := by
  rintro rfl
  exact absurd (once "recipient" (by decide)) Nat.zero_ne_one

/-- Tables that have the columns of a record's fields in common are read alike. -/
theorem recordsOfRows_of_subset {wider : List (Column n)} (path : String)
    (once : NamesOnce (columns.map (·.name))) (once' : NamesOnce (wider.map (·.name)))
    (kept : columns ⊆ wider) :
    recordsOfRows path ⟨sideBySide wider, none⟩ =
      recordsOfRows path ⟨sideBySide columns, none⟩ := by
  have same := readRecords_congr path (recordCells_of_subset once once' kept) 2 (List.finRange n)
  simp only [recordsOfRows, sideBySide, recordsBelow, missingColumns_of_namesOnce once,
    missingColumns_of_namesOnce once', filter_rows _ (ne_nil_of_namesOnce once),
    filter_rows _ (ne_nil_of_namesOnce once'), same]

/-! ## Files -/

/-- The rows that are read of a file are those of a table, and nothing is wrong behind them. -/
def HoldsTable (content : Bytes) (table : List Row) : Prop :=
  Rows.ofLines (.ofBytes content) = ⟨table, none⟩

/-- None of the cells of a column is too long, nor its name. -/
structure Column.Fits (c : Column n) : Prop where
  name : c.name.length ≤ longestCell
  cell : ∀ i, (c.cell i).length ≤ longestCell

theorem forall_cell_sideBySide_iff :
    (∀ row ∈ sideBySide columns, ∀ cell ∈ row, cell.length ≤ longestCell) ↔
      ∀ c ∈ columns, c.Fits := by
  simp only [sideBySide, List.forall_mem_cons, List.forall_mem_map, List.mem_finRange,
    forall_const]
  constructor
  · rintro ⟨names, cells⟩ c member
    exact ⟨names c member, fun i => cells i c member⟩
  · intro fits
    exact ⟨fun c member => (fits c member).name, fun i c member => (fits c member).cell i⟩

/-- With further columns under names of their own, each name of a field is still there once. -/
theorem namesOnce_of_perm {foreign wider : List (Column n)}
    (once : NamesOnce (columns.map (·.name)))
    (others : ∀ c ∈ foreign, c.name ∉ Record.columns)
    (rearranged : wider.Perm (columns ++ foreign)) : NamesOnce (wider.map (·.name)) := by
  intro name member
  have absent : name ∉ foreign.map (·.name) := by
    intro present
    obtain ⟨c, here, rfl⟩ := List.mem_map.1 present
    exact others c here member
  rw [(rearranged.map (·.name)).count_eq, List.map_append, List.count_append, once name member,
    List.count_eq_zero.2 absent]

theorem batchOfFile_congr {path : String} {content content' : Bytes}
    (same : recordsOfFile path content' = recordsOfFile path content) :
    batchOfFile path content' = batchOfFile path content := by
  rw [batchOfFile, batchOfFile, same]

/-- Columns are found by name. Of a table that names each field of a record once, and whose rows
are as long as its header, the columns are moved, header and rows alike, and any columns with
other names are put in, whatever their cells hold. If no cell is too long, both tables are held
by what is written of them, and files that hold them, however these are written, give the same:
the same records in the same order, or the same refusal of the same row, whether the records are
checked as a batch or not. -/
theorem columns_found_by_name {header : Row} {rows : List Row} (once : NamesOnce header)
    (rectangular : ∀ row ∈ rows, row.length = header.length)
    {foreign wider : List (Column rows.length)}
    (others : ∀ c ∈ foreign, c.name ∉ Record.columns)
    (rearranged : wider.Perm (columnsOf header rows ++ foreign))
    (short : ∀ row ∈ header :: rows, ∀ cell ∈ row, cell.length ≤ longestCell)
    (fits : ∀ c ∈ foreign, c.Fits) (path : String) :
    HoldsTable (Text.toUtf8 (writeTable (header :: rows))) (header :: rows) ∧
    HoldsTable (Text.toUtf8 (writeTable (sideBySide wider))) (sideBySide wider) ∧
    ∀ content content', HoldsTable content (header :: rows) →
      HoldsTable content' (sideBySide wider) →
      recordsOfFile path content' = recordsOfFile path content ∧
        batchOfFile path content' = batchOfFile path content := by
  have whole : sideBySide (columnsOf header rows) = header :: rows :=
    sideBySide_columnsOf rectangular
  have once' : NamesOnce ((columnsOf header rows).map (·.name)) := by
    rwa [map_name_columnsOf]
  have kept : columnsOf header rows ⊆ wider := fun c member =>
    rearranged.mem_iff.2 (List.mem_append_left foreign member)
  have fits' : ∀ c ∈ wider, c.Fits := by
    intro c member
    rcases List.mem_append.1 (rearranged.mem_iff.1 member) with own | other
    · exact forall_cell_sideBySide_iff.1 (whole ▸ short) c own
    · exact fits c other
  refine ⟨ofLines_writeTable _ short, ?_, ?_⟩
  · exact ofLines_writeTable _ (forall_cell_sideBySide_iff.2 fits')
  · intro content content' holds holds'
    have same : recordsOfFile path content' = recordsOfFile path content := by
      rw [recordsOfFile, recordsOfFile, holds, holds', ← whole]
      exact recordsOfRows_of_subset path once' (namesOnce_of_perm once' others rearranged) kept
    exact ⟨same, batchOfFile_congr same⟩

/-- The rows of two records. -/
def twinRows : List Row := Distribution.twins.map recordRow

/-- A remark about each of two records, which has to be quoted. -/
def remark : Column twinRows.length := ⟨"remark", fun _ => "from \"A\",\r\nchecked"⟩

/-- The columns of the table of two records backwards, behind the remark. -/
def remarked : List (Column twinRows.length) :=
  remark :: (columnsOf Record.columns twinRows).reverse

/-- The records are read. -/
theorem columns_found_by_name_remarked :
    NamesOnce Record.columns ∧ remark.name ∉ Record.columns ∧ remark.Fits ∧
    remarked.Perm (columnsOf Record.columns twinRows ++ [remark]) ∧
    recordsOfFile "grants.csv" (Text.toUtf8 (writeTable (sideBySide remarked))) =
      .ok Distribution.twins := by
  have rearranged : remarked.Perm (columnsOf Record.columns twinRows ++ [remark]) :=
    ((List.reverse_perm _).cons remark).trans (List.perm_append_singleton remark _).symm
  have rectangular : ∀ row ∈ twinRows, row.length = Record.columns.length := by
    intro row member
    obtain ⟨r, -, rfl⟩ := List.mem_map.1 member
    rfl
  have other : remark.name ∉ Record.columns := by decide
  have fits : remark.Fits := by
    have text : "from \"A\",\r\nchecked".length ≤ longestCell := by decide
    exact ⟨by decide, fun _ => text⟩
  have once : NamesOnce Record.columns := by
    unfold NamesOnce
    decide
  obtain ⟨holds, holds', same⟩ := columns_found_by_name once rectangular
    (List.forall_mem_singleton.2 other) rearranged (fun row present cell => length_cell_le present)
    (List.forall_mem_singleton.2 fits) "grants.csv"
  refine ⟨once, other, fits, rearranged, ?_⟩
  rw [(same _ _ holds holds').1]
  exact recordsOfFile_tableOf "grants.csv" Distribution.twins

end Vesting.Csv
