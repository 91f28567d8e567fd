/-
# Paths

A path is written with slashes. Repeated slashes count once, except that exactly two at
the start are kept; parts that stand for the same place are dropped, and so is a slash at
the end. Parts that lead upwards are kept. The empty path stands for the current place
and is written as a point.
-/

namespace Vesting

/-- A path: what it starts from (nothing, or one or two slashes) and its parts. -/
structure Path where
  root : String
  parts : List String
  deriving DecidableEq

namespace Path

/-- The pieces of a text between slashes, the first of which starts with `current`, latest
character first. -/
def pieces (current : List Char) : List Char → List String
  | [] => [String.ofList current.reverse]
  | '/' :: rest => String.ofList current.reverse :: pieces [] rest
  | c :: rest => pieces (c :: current) rest

def rootOf : List Char → String
  | '/' :: '/' :: '/' :: _ => "/"
  | '/' :: '/' :: _ => "//"
  | '/' :: _ => "/"
  | _ => ""

/-- The path that a text stands for. -/
def ofString (s : String) : Path :=
  ⟨rootOf s.toList, (pieces [] s.toList).filter fun part => part != "" && part != "."⟩

def toString (p : Path) : String :=
  let text := p.root ++ "/".intercalate p.parts
  if text.isEmpty then "." else text

instance : ToString Path := ⟨toString⟩

/-- A path seen from another; a path that starts from a root replaces the other. -/
def join (p q : Path) : Path := if q.root.isEmpty then ⟨p.root, p.parts ++ q.parts⟩ else q

def parent (p : Path) : Path := { p with parts := p.parts.dropLast }

/-- The parts of a path after going up where it says so; above everything is nothing. -/
def settled (parts : List String) : List String :=
  (parts.foldl (fun done part => if part == ".." then done.tail else part :: done) []).reverse

end Path

end Vesting
