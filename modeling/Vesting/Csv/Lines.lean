/-
# Lines of a file

A line ends at a line feed, a carriage return, or both in this order, and keeps its end.
A file is read in parts of 8192 bytes, so that the lines before a place that is no text
are still read: every line that was complete before the part in which the fault is told,
not counting a carriage return that closes a part, since a line feed might follow.
-/

import Vesting.Text.Utf8

namespace Vesting.Csv

abbrev Line := List Char

/-- The lines of a text whose first line starts with `current`, latest character first. -/
def splitFrom (current : List Char) : List Char → List Line
  | [] => if current.isEmpty then [] else [current.reverse]
  | '\n' :: rest => ('\n' :: current).reverse :: splitFrom [] rest
  | '\r' :: '\n' :: rest => ('\n' :: '\r' :: current).reverse :: splitFrom [] rest
  | '\r' :: rest => ('\r' :: current).reverse :: splitFrom [] rest
  | c :: rest => splitFrom (c :: current) rest

def splitLines (cs : List Char) : List Line := splitFrom [] cs

def isComplete (line : Line) : Bool :=
  match line.getLast? with
  | some c => c == '\n' || c == '\r'
  | none => false

/-- The number of bytes that are read together. -/
def partSize : Nat := 8192

/-- The lines that can be read of a file, and the fault that ends them. -/
structure Lines where
  lines : List Line
  fault : Option Text.Utf8Fault

/-- The lines of the bytes of a file. -/
def Lines.ofBytes (bytes : Bytes) : Lines :=
  match Text.utf8Parts partSize bytes with
  | (cs, none) => ⟨splitLines cs, none⟩
  | (cs, some fault) =>
    let settled := if cs.getLast? == some '\r' then cs.dropLast else cs
    ⟨(splitLines settled).filter isComplete, some fault⟩

end Vesting.Csv
