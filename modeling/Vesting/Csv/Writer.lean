/-
# Writing tables

Every row ends in a carriage return and a line feed. A cell is quoted only where it would
not be read back otherwise, and quotes inside of it are doubled.
-/

namespace Vesting.Csv

/-- Whether a character has to stand in quotes. -/
def isSpecial (c : Char) : Bool := c == ',' || c == '"' || c == '\r' || c == '\n'

def quoteCell (cs : List Char) : List Char :=
  '"' :: cs.flatMap (fun c => if c == '"' then ['"', '"'] else [c]) ++ ['"']

def writeCell (s : String) : List Char :=
  if s.toList.any isSpecial then quoteCell s.toList else s.toList

/-- The characters of a row, cells between commas. -/
def writeCells : List String → List Char
  | [] => []
  | [cell] => writeCell cell
  | cell :: rest => writeCell cell ++ ',' :: writeCells rest

/-- A row with its end. A single empty cell is quoted, so that it is no empty line. -/
def writeRow (cells : List String) : List Char :=
  (if cells == [""] then quoteCell [] else writeCells cells) ++ ['\r', '\n']

def writeTable (rows : List (List String)) : String := String.ofList (rows.flatMap writeRow)

end Vesting.Csv
