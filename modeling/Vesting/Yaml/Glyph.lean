/-
# Characters in their places

In a document the place of a character matters: its line, and its column, from which the
nesting of blocks is read. The text is read as characters that carry their places.
-/

namespace Vesting.Yaml

/-- A character with its line, its column and its distance from the start. -/
structure Glyph where
  char : Char
  line : Nat
  column : Nat
  offset : Nat

def isBreak (c : Char) : Bool := c == '\n' || c == '\u2028' || c == '\u2029'

def isSpace (c : Char) : Bool := c == ' ' || c == '\t'

/-- What separates a mark from what follows; a null character stands for the end. -/
def isGap (c : Char) : Bool := isSpace c || isBreak c || c == '\x00'

/-- The characters that a document may hold. -/
def isAllowed (c : Char) : Bool :=
  let n := c.toNat
  n == 9 || n == 10 || n == 13 || (0x20 ≤ n && n ≤ 0x7e) || n == 0x85 || (0xa0 ≤ n && n ≤ 0xfffd)
    || 0x10000 ≤ n

/-- One sign for all line breaks but two. -/
def unifyBreaks : List Char → List Char
  | '\r' :: '\n' :: rest => '\n' :: unifyBreaks rest
  | c :: rest => (if c == '\r' || c.toNat == 0x85 then '\n' else c) :: unifyBreaks rest
  | [] => []

/-- The characters of a text in their places. -/
def glyphs (line column offset : Nat) : List Char → List Glyph
  | [] => []
  | c :: rest =>
    ⟨c, line, column, offset⟩ ::
      if isBreak c then glyphs (line + 1) 0 (offset + 1) rest
      else glyphs line (column + 1) (offset + 1) rest

/-- The next character; a null character at the end. -/
def peek : List Glyph → Char
  | [] => '\x00'
  | g :: _ => g.char

/-- Three times the same character, and a gap. -/
def isTriple (c : Char) : List Glyph → Bool
  | x :: y :: z :: rest => [x, y, z].all (·.char == c) && isGap (peek rest)
  | _ => false

/-- The mark before or after a document, at the start of a line. -/
def isSeparator (gs : List Glyph) : Bool := isTriple '-' gs || isTriple '.' gs

/-- Go to the next token over spaces, line breaks and comments, and tell whether a line
has ended on the way. -/
def toToken (comment broke : Bool) : List Glyph → Bool × List Glyph
  | [] => (broke, [])
  | g :: rest =>
    if isBreak g.char then toToken false true rest
    else if comment || g.char == ' ' then toToken comment broke rest
    else if g.char == '#' then toToken true broke rest
    else (broke, g :: rest)

/-- The characters at the front that satisfy a condition, and what follows. -/
def splitWhile (p : Char → Bool) : List Glyph → List Char × List Glyph
  | [] => ([], [])
  | g :: rest =>
    if p g.char then
      let (cs, rest) := splitWhile p rest
      (g.char :: cs, rest)
    else ([], g :: rest)

end Vesting.Yaml
