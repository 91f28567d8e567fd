/-
# Sets of code points

A character class of the Unicode standard is written down as the sorted code
points at which membership changes, starting outside the class. This is the
shortest honest form of such a table: two neighbouring entries bound one run.
-/

namespace Vesting.Text

/-- A set of code points, given by the ascending points where membership changes. -/
structure CodePoints where
  changes : List Nat

namespace CodePoints

/-- Whether membership at `point` differs from `inside`, the membership before the
first of the remaining changes. -/
def scan (point : Nat) : List Nat → Bool → Bool
  | [], inside => inside
  | change :: rest, inside => if point < change then inside else scan point rest (!inside)

def contains (s : CodePoints) (c : Char) : Bool :=
  scan c.toNat s.changes false

end CodePoints

end Vesting.Text
