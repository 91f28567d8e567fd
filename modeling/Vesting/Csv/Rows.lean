/-
# Rows of a table

A table is text: a row a line, cells between commas. A quote at the start of a cell opens
a quoted part, in which commas and line ends stand for themselves and two quotes for one;
what follows the closing quote is appended as it is. A quoted part that is never closed
runs to the end of the file. Cells have at most 131072 characters.

Rows are read one after another, so that what is wrong behind a row does not keep the
row from being looked at.
-/

import Vesting.Csv.Lines
import Vesting.Failure

namespace Vesting.Csv

/-- A row: its cells, none for an empty line. -/
abbrev Row := List String

def longestCell : Nat := 131072

/-- Where a reader stands in a row. -/
inductive Place
  | rowStart
  | cellStart
  | inCell
  | inQuotes
  | afterQuote
  | rowEnd
  deriving DecidableEq

/-- A row that is being read: where the reader stands, the cells read, latest first, and
the characters of the current cell, latest first, with their number. -/
structure Scan where
  place : Place
  cells : List String
  cell : List Char
  size : Nat

namespace Scan

def start : Scan := ⟨.rowStart, [], [], 0⟩

/-- Add a character to the current cell. -/
def push (s : Scan) (place : Place) (c : Char) : Option Scan :=
  if longestCell ≤ s.size then none
  else some { s with place := place, cell := c :: s.cell, size := s.size + 1 }

def save (s : Scan) (place : Place) : Scan :=
  ⟨place, String.ofList s.cell.reverse :: s.cells, [], 0⟩

def endsLine (c : Char) : Bool := c == '\n' || c == '\r'

/-- Read a character outside of quotes at the start of a cell. -/
def openCell (s : Scan) (c : Char) : Option Scan :=
  if endsLine c then some (s.save .rowEnd)
  else if c == '"' then some { s with place := .inQuotes }
  else if c == ',' then some (s.save .cellStart)
  else s.push .inCell c

/-- Read a character; nothing if the cell becomes too long. -/
def step (s : Scan) (c : Char) : Option Scan :=
  match s.place with
  | .rowStart => if endsLine c then some { s with place := .rowEnd } else s.openCell c
  | .cellStart => s.openCell c
  | .inCell =>
    if endsLine c then some (s.save .rowEnd)
    else if c == ',' then some (s.save .cellStart)
    else s.push .inCell c
  | .inQuotes =>
    if c == '"' then some { s with place := .afterQuote } else s.push .inQuotes c
  | .afterQuote =>
    if c == '"' then s.push .inQuotes c
    else if c == ',' then some (s.save .cellStart)
    else if endsLine c then some (s.save .rowEnd)
    else s.push .inCell c
  | .rowEnd => some s

def readLine (s : Scan) (line : Line) : Option Scan := line.foldlM step s

def row (s : Scan) : Row :=
  match s.place with
  | .rowStart => s.cells.reverse
  | .rowEnd => s.cells.reverse
  | _ => (s.save .rowEnd).cells.reverse

end Scan

/-- The rows that can be read of a table, and the failure that ends them. -/
structure Rows where
  rows : List Row
  failure : Option Failure

/-- The rows of the remaining lines, of which the first continues a row. -/
def readRows (fault : Option Text.Utf8Fault) : Scan → List Line → Rows
  | scan, [] =>
    match fault with
    | some fault => ⟨[], some (.notText fault)⟩
    | none => ⟨if scan.place == .inQuotes then [scan.row] else [], none⟩
  | scan, line :: rest =>
    match scan.readLine line with
    | none => ⟨[], some (.cellTooLong longestCell)⟩
    | some scan =>
      if scan.place == .inQuotes then readRows fault scan rest
      else
        let more := readRows fault .start rest
        ⟨scan.row :: more.rows, more.failure⟩

def Rows.ofLines (l : Lines) : Rows := readRows l.fault .start l.lines

end Vesting.Csv
