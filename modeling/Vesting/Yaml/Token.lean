/-
# Tokens

A document is split into tokens. The nesting of blocks, which is written by indentation,
becomes tokens as well: a block opens where a first entry or key stands further to the
right than the block around it, and closes where a line begins further to the left.

A key is recognised late, by the colon behind it. Up to then a place where a key may have
begun is kept for every level of brackets; a key ends on its line and is not too long. A
line of a block mapping has to begin with a key.

Settings need mappings, lists and scalars. Anchors, tags, directives and scalars that are
blocks of lines are no part of their language.
-/

import Vesting.Yaml.Scalar

namespace Vesting.Yaml

/-- A token. -/
inductive Token
  | separator (ends : Bool)
  | openEntries
  | openMapping
  | close
  | openFlowEntries
  | closeFlowEntries
  | openFlowMapping
  | closeFlowMapping
  | comma
  | entry
  | key
  | value
  | scalar (quoted : Bool) (text : String)

/-- A place where a key may have begun. -/
structure KeyPlace where
  /-- The number of tokens before it. -/
  before : Nat
  /-- Whether there has to be a key. -/
  required : Bool
  line : Nat
  column : Nat
  offset : Nat

/-- The longest distance between the start of a key and its colon. -/
def longestKey : Nat := 1024

/-- What has been found so far. -/
structure Scan where
  rest : List Glyph
  /-- The columns of the open blocks, innermost first. -/
  blocks : List Nat
  /-- Where a key may have begun outside of all brackets, and at every open bracket,
  innermost first. -/
  places : List (Option KeyPlace)
  /-- Whether a key can begin here. -/
  keyAllowed : Bool
  /-- The number of tokens. -/
  count : Nat
  /-- The tokens, latest first. -/
  tokens : List Token

namespace Scan

def start (text : List Glyph) : Scan := ⟨text, [], [none], true, 0, []⟩

def inFlow (s : Scan) : Bool := 1 < s.places.length

def column (s : Scan) : Nat := (s.rest.head?.map (·.column)).getD 0

/-- The first column inside of the innermost block. -/
def least (s : Scan) : Nat :=
  match s.blocks with
  | [] => 0
  | column :: _ => column + 1

def add (s : Scan) (t : Token) : Scan := { s with count := s.count + 1, tokens := t :: s.tokens }

/-- Insert tokens where a number of tokens come before. -/
def insert (s : Scan) (before : Nat) (ts : List Token) : Scan :=
  let after := s.count - before
  { s with
    count := s.count + ts.length
    tokens := s.tokens.take after ++ ts.reverse ++ s.tokens.drop after }

def skip (s : Scan) (n : Nat) : Scan := { s with rest := s.rest.drop n }

/-- Give up a place for a key, which must not be a required one. -/
def forget (place : Option KeyPlace) : Option (Option KeyPlace) :=
  if place.any (·.required) then none else some none

/-- Give up the place for a key at the current level of brackets. -/
def dropPlace (s : Scan) : Option Scan :=
  match s.places with
  | [] => some s
  | place :: rest => (forget place).map fun place => { s with places := place :: rest }

/-- Give up the places that lie on another line or too far away. -/
def dropStale (s : Scan) : Option Scan :=
  match s.rest with
  | [] => some s
  | g :: _ =>
    let stale := fun (place : Option KeyPlace) =>
      place.any fun k => k.line != g.line || longestKey < g.offset - k.offset
    (s.places.mapM fun place => if stale place then forget place else some place).map
      fun places => { s with places }

/-- Keep the place of the next token if a key can begin there. -/
def savePlace (s : Scan) : Option Scan :=
  match s.rest with
  | [] => some s
  | g :: _ =>
    if s.keyAllowed then
      (dropPlace s).map fun s =>
        let place : KeyPlace :=
          ⟨s.count, !s.inFlow && s.least == g.column + 1, g.line, g.column, g.offset⟩
        { s with places := some place :: s.places.tail }
    else some s

/-- Close the blocks that begin further to the right than a column. -/
def closeBlocks (column : Nat) (s : Scan) : Scan :=
  let closed := s.blocks.takeWhile (column < ·)
  closed.foldl (fun s _ => s.add .close) { s with blocks := s.blocks.drop closed.length }

/-- Open a block at a column if it lies further to the right than the one around it. -/
def opens (s : Scan) (column : Nat) : Bool := s.least ≤ column

/-- The mark before or after a document. -/
def separator (s : Scan) : Option Scan := do
  let s ← dropPlace (s.blocks.foldl (fun s _ => s.add .close) { s with blocks := [] })
  let ends := peek s.rest == '.'
  return ({ s with keyAllowed := false }.add (.separator ends)).skip 3

def openFlow (s : Scan) (t : Token) : Option Scan := do
  let s ← savePlace s
  return ({ s with places := none :: s.places, keyAllowed := true }.add t).skip 1

/-- A closing bracket; one has to be open. -/
def closeFlow (s : Scan) (t : Token) : Option Scan := do
  let s ← dropPlace s
  if s.inFlow then
    return ({ s with places := s.places.tail, keyAllowed := false }.add t).skip 1
  else none

def comma (s : Scan) : Option Scan := do
  let s ← dropPlace s
  return ({ s with keyAllowed := true }.add .comma).skip 1

/-- The dash before an entry. It can only stand where a key can, outside of brackets. -/
def entry (s : Scan) : Option Scan := do
  if s.inFlow || !s.keyAllowed then none
  let column := s.column
  let s := if s.opens column then { s with blocks := column :: s.blocks }.add .openEntries else s
  let s ← dropPlace s
  return ({ s with keyAllowed := true }.add .entry).skip 1

def key (s : Scan) : Option Scan := do
  if !s.inFlow && !s.keyAllowed then none
  let column := s.column
  let s := if !s.inFlow && s.opens column then
      { s with blocks := column :: s.blocks }.add .openMapping
    else s
  let s ← dropPlace s
  return ({ s with keyAllowed := !s.inFlow }.add .key).skip 1

/-- The colon before a value: behind a key that has been found, or behind one that a
question mark has announced. -/
def value (s : Scan) : Option Scan :=
  match s.places.head?.join with
  | some place =>
    let s := { s with places := none :: s.places.tail, keyAllowed := false }
    let s := if !s.inFlow && s.opens place.column then
        { s with blocks := place.column :: s.blocks }.insert place.before [.openMapping, .key]
      else s.insert place.before [.key]
    some ((s.add .value).skip 1)
  | none => do
    if !s.inFlow && !s.keyAllowed then none
    let column := s.column
    let s := if !s.inFlow && s.opens column then
        { s with blocks := column :: s.blocks }.add .openMapping
      else s
    let s ← dropPlace s
    return ({ s with keyAllowed := !s.inFlow }.add .value).skip 1

def quotedScalar (double : Bool) (s : Scan) : Option Scan := do
  let s ← savePlace s
  let (text, rest) ← quoted double (s.rest.length + 1) [] s.rest.tail
  return { s with keyAllowed := false, rest }.add (.scalar true (String.ofList text))

def plainScalar (s : Scan) : Option Scan := do
  let s ← savePlace s
  let (text, gap) := plain s.inFlow s.least s.rest
  return { s with keyAllowed := gap.broke, rest := gap.rest }.add
    (.scalar false (String.ofList text))

def token (s : Scan) : Option Scan :=
  let c := peek s.rest
  let gapNext := isGap (peek s.rest.tail)
  if s.column == 0 && isSeparator s.rest then s.separator
  else match c with
    | '[' => s.openFlow .openFlowEntries
    | ']' => s.closeFlow .closeFlowEntries
    | '\x7b' => s.openFlow .openFlowMapping
    | '\x7d' => s.closeFlow .closeFlowMapping
    | ',' => s.comma
    | '"' => s.quotedScalar true
    | '\'' => s.quotedScalar false
    | _ =>
      if c == '-' && gapNext then s.entry
      else if c == '?' && (s.inFlow || gapNext) then s.key
      else if c == ':' && (s.inFlow || gapNext) then s.value
      else if beginsPlain s.inFlow s.rest then s.plainScalar
      else none

def advance (s : Scan) : Option Scan := do
  let (broke, rest) := toToken false false s.rest
  let s := { s with rest, keyAllowed := s.keyAllowed || (broke && !s.inFlow) }
  let s ← dropStale s
  match s.rest with
  | [] => return s
  | g :: _ => return if s.inFlow then s else closeBlocks g.column s

/-- The tokens up to the end; the fuel is more than the number of characters left. At the
end no required key is missing and all blocks are closed. -/
def run : Nat → Scan → Option (List Token)
  | 0, _ => none
  | fuel + 1, s => do
    let s ← advance s
    if s.rest.isEmpty then
      let s ← dropPlace s
      return (s.blocks.foldl (fun s _ => s.add .close) s).tokens.reverse
    else run fuel (← token s)

end Scan

def tokens (s : String) : Option (List Token) :=
  let cs := s.toList
  let text := unifyBreaks (if cs.head? == some '\ufeff' then cs.tail else cs)
  if text.all isAllowed then
    Scan.run (text.length + 1) (.start (glyphs 0 0 0 text))
  else none

end Vesting.Yaml
