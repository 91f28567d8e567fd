/-
# White space

Two classes of blank characters are in use. Numbers are read after the characters
with the Unicode property `White_Space` have been removed from both ends; table
cells also lose the four information separators U+001C to U+001F.
-/

import Vesting.Text.CodePoints

namespace Vesting.Text

/-- The characters with the Unicode property `White_Space`. -/
def whiteSpace : CodePoints :=
  ⟨[0x9, 0xe, 0x20, 0x21, 0x85, 0x86, 0xa0, 0xa1, 0x1680, 0x1681, 0x2000, 0x200b, 0x2028, 0x202a,
    0x202f, 0x2030, 0x205f, 0x2060, 0x3000, 0x3001]⟩

/-- White space of numbers: the Unicode property itself. -/
def isWhiteSpace (c : Char) : Bool := whiteSpace.contains c

/-- White space of table cells: the Unicode property and the information separators. -/
def isBlank (c : Char) : Bool :=
  isWhiteSpace c || (0x1c ≤ c.toNat && c.toNat ≤ 0x1f)

/-- Remove the characters of a class from both ends. -/
def trim (blank : Char → Bool) (cs : List Char) : List Char :=
  ((cs.dropWhile blank).reverse.dropWhile blank).reverse

/-- The cells' white space contains the white space of core's own class. -/
theorem isBlank_of_isWhitespace {c : Char} (h : c.isWhitespace = true) : isBlank c = true := by
  simp only [Char.isWhitespace, Bool.or_eq_true, decide_eq_true_eq] at h
  rcases h with ((h | h) | h) | h <;> subst h <;> decide

end Vesting.Text
