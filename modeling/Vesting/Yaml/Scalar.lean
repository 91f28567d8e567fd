/-
# The text of scalars

A scalar can go over several lines. A single line break in it counts as a space, and of
several line breaks all but the first count.
-/

import Vesting.Text.HexDigit
import Vesting.Yaml.Glyph

namespace Vesting.Yaml

/-- What stands for a line break and further ones. -/
def fold (first : Char) (more : List Char) : List Char :=
  if first != '\n' then first :: more
  else if more.isEmpty then [' ']
  else more

/-! ## Quoted scalars -/

/-- Further line breaks and the blanks around them, from the start of a line on. A
document must not end inside of a scalar. -/
def quotedBreaks (start : Bool) : List Glyph → Option (List Char × List Glyph)
  | [] => some ([], [])
  | g :: rest =>
    if start && isSeparator (g :: rest) then none
    else if isSpace g.char then quotedBreaks false rest
    else if isBreak g.char then
      (quotedBreaks true rest).map fun (cs, rest) => (g.char :: cs, rest)
    else some ([], g :: rest)

/-- The character that a letter behind a backslash stands for. -/
def escapeOf? (c : Char) : Option Char :=
  match c with
  | '0' => some '\x00'
  | 'a' => some '\x07'
  | 'b' => some '\x08'
  | 't' => some '\t'
  | '\t' => some '\t'
  | 'n' => some '\n'
  | 'v' => some '\x0b'
  | 'f' => some '\x0c'
  | 'r' => some '\r'
  | 'e' => some '\x1b'
  | ' ' => some ' '
  | '"' => some '"'
  | '\\' => some '\\'
  | '/' => some '/'
  | 'N' => some '\u0085'
  | '_' => some '\u00a0'
  | 'L' => some '\u2028'
  | 'P' => some '\u2029'
  | _ => none

/-- The number of hexadecimal digits behind a letter. -/
def escapeSize? (c : Char) : Option Nat :=
  match c with
  | 'x' => some 2
  | 'u' => some 4
  | 'U' => some 8
  | _ => none

def codeOf? (digits : List Char) : Option Char := do
  let values ← digits.mapM Text.hexValue?
  let code := values.foldl (fun n d => 16 * n + d) 0
  if code.isValidChar then some (Char.ofNat code) else none

/-- What an escape stands for, the backslash having been read. -/
def escape : List Glyph → Option (List Char × List Glyph)
  | [] => none
  | g :: rest =>
    match escapeOf? g.char, escapeSize? g.char with
    | some c, _ => some ([c], rest)
    | none, some size =>
      let digits := (rest.take size).map (·.char)
      if digits.length < size then none
      else (codeOf? digits).map fun c => ([c], rest.drop size)
    | none, none => if isBreak g.char then quotedBreaks true rest else none

/-- A quoted scalar up to its closing quote, the opening one having been read. The fuel is
more than the number of characters left; `read` holds the characters so far, latest
first. -/
def quoted (double : Bool) : Nat → List Char → List Glyph → Option (List Char × List Glyph)
  | 0, _, _ => none
  | _, _, [] => none
  | fuel + 1, read, g :: rest =>
    let c := g.char
    if isSpace c || isBreak c then
      match splitWhile isSpace (g :: rest) with
      | (_, []) => none
      | (blanks, next :: after) =>
        if isBreak next.char then
          match quotedBreaks true after with
          | some (breaks, after) =>
            quoted double fuel ((fold next.char breaks).reverse ++ read) after
          | none => none
        else quoted double fuel (blanks.reverse ++ read) (next :: after)
    else if c == '"' && double then some (read.reverse, rest)
    else if c == '\'' && !double then
      match rest with
      | [] => some (read.reverse, rest)
      | next :: after =>
        if next.char == '\'' then quoted double fuel ('\'' :: read) after
        else some (read.reverse, rest)
    else if c == '\\' && double then
      match escape rest with
      | some (cs, after) => quoted double fuel (cs.reverse ++ read) after
      | none => none
    else quoted double fuel (c :: read) rest

/-! ## Plain scalars -/

/-- Whether a scalar without quotes can begin here. -/
def beginsPlain (flow : Bool) (gs : List Glyph) : Bool :=
  let c := peek gs
  let next := peek gs.tail
  !(isGap c || "-?:,[]\x7b\x7d#&*!|>'\"%@\x60".toList.contains c) ||
    (!isGap next && (c == '-' || (!flow && (c == '?' || c == ':'))))

/-- The characters of a scalar without quotes up to a gap or a mark. -/
def plainWord (flow : Bool) : List Glyph → List Char × List Glyph
  | [] => ([], [])
  | g :: rest =>
    let next := peek rest
    let ends := isGap g.char ||
      (g.char == ':' && (isGap next || (flow && ",[]\x7b\x7d".toList.contains next))) ||
      (flow && ",?[]\x7b\x7d".toList.contains g.char)
    if ends then ([], g :: rest)
    else
      let (cs, rest) := plainWord flow rest
      (g.char :: cs, rest)

/-- Further line breaks and the spaces around them, from the start of a line on; nothing
if the document ends. -/
def plainBreaks (start : Bool) : List Glyph → Option (List Char) × List Glyph
  | [] => (some [], [])
  | g :: rest =>
    if start && isSeparator (g :: rest) then (none, g :: rest)
    else if g.char == ' ' then plainBreaks false rest
    else if isBreak g.char then
      let (cs, rest) := plainBreaks true rest
      (cs.map (g.char :: ·), rest)
    else (some [], g :: rest)

/-- What follows a word of a scalar without quotes. -/
structure Gap where
  /-- What stands between the word and the next one; nothing if no word can follow. -/
  text : Option (List Char)
  /-- Whether a line has ended. -/
  broke : Bool
  rest : List Glyph

def gap (gs : List Glyph) : Gap :=
  match splitWhile (· == ' ') gs with
  | (blanks, []) => ⟨if blanks.isEmpty then none else some blanks, false, []⟩
  | (blanks, next :: after) =>
    if isBreak next.char then
      let (breaks, after) := plainBreaks true after
      ⟨breaks.map (fold next.char), true, after⟩
    else ⟨if blanks.isEmpty then none else some blanks, false, next :: after⟩

/-- The rest of a scalar without quotes: gaps, and words behind them. In a block every
line of it begins at the column `least` or later. The fuel is more than the number of
characters left; `read` holds the characters so far, latest first. -/
def plainRest (flow : Bool) (least : Nat) : Nat → List Char → Gap → List Char × Gap
  | 0, read, g => (read.reverse, g)
  | fuel + 1, read, g =>
    let (word, rest) := plainWord flow g.rest
    let low := match g.rest with
      | next :: _ => !flow && next.column < least
      | [] => true
    match g.text with
    | none => (read.reverse, g)
    | some between =>
      if word.isEmpty || peek g.rest == '#' || low then (read.reverse, g)
      else plainRest flow least fuel (word.reverse ++ between.reverse ++ read) (gap rest)

/-- A scalar without quotes, and the gap behind its last word. -/
def plain (flow : Bool) (least : Nat) (gs : List Glyph) : List Char × Gap :=
  let (word, rest) := plainWord flow gs
  plainRest flow least (gs.length + 1) word.reverse (gap rest)

end Vesting.Yaml
