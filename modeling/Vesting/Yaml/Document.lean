/-
# Documents

A text holds one document, which may be announced and ended by marks. Of a repeated key
the last value counts, and a missing value is nothing.

What is read is the part of YAML 1.1 that settings are written in: mappings and lists, as
blocks or in brackets, plain and quoted scalars, comments, and the marks `---` and `...`.
Documents outside of this part are read otherwise than YAML has it: a plain scalar that is
spelled like a date, or like a number with a point counted by sixties, is a text here, and
there are no anchors, aliases, tags, directives, merge keys or scalars that are blocks of
lines.
-/

import Vesting.Binary64.Shortest
import Vesting.Yaml.Plain
import Vesting.Yaml.Token

namespace Vesting.Yaml

/-- The outcome of reading something at the front of some tokens. -/
abbrev Read (α : Type) := Except Failure (α × List Token)

/-- Where a value stands, which decides what it can be. -/
inductive Place
  | block
  /-- The value of a key of a block, whose entries may stand as far left as the key. -/
  | field
  | flow
  deriving DecidableEq

/-- Whether a token shows that a value has been left out. -/
def leavesOut : Option Token → Bool
  | some .key | some .value | some .close | some .comma => true
  | some .closeFlowEntries | some .closeFlowMapping => true
  | _ => false

/-- The text of a key, which has to be a scalar. -/
def keyText : Value → Except Failure String
  | .text s => .ok s
  | .null => .ok "null"
  | .bool b => .ok (if b then "true" else "false")
  | .int n => .ok (toString n)
  | .float x => .ok x.toText
  | _ => .error .notYaml

mutual

/-- A value. The fuel is at least three times the number of tokens. -/
def readNode : Nat → Place → List Token → Read Value
  | 0, _, _ => .error .notYaml
  | fuel + 1, place, tokens =>
    match tokens with
    | .scalar true s :: rest => .ok (.text s, rest)
    | .scalar false s :: rest => (ofPlain s).map fun v => (v, rest)
    | .openFlowEntries :: rest => readFlowEntries fuel [] rest
    | .openFlowMapping :: rest => readFlowFields fuel [] rest
    | .openEntries :: rest =>
      if place == .flow then .error .notYaml
      else match readEntries fuel [] rest with
        | .ok (items, .close :: rest) => .ok (.list items, rest)
        | .ok _ => .error .notYaml
        | .error e => .error e
    | .openMapping :: rest =>
      if place == .flow then .error .notYaml else readFields fuel [] rest
    | .entry :: _ =>
      if place == .field then
        (readEntries fuel [] tokens).map fun (items, rest) => (.list items, rest)
      else .error .notYaml
    | _ => .error .notYaml

/-- A value that may have been left out. -/
def readOptional : Nat → Place → List Token → Read Value
  | 0, _, _ => .error .notYaml
  | fuel + 1, place, tokens =>
    if leavesOut tokens.head? then .ok (.null, tokens) else readNode fuel place tokens

/-- Entries behind dashes; `read` holds those read, latest first. -/
def readEntries : Nat → List Value → List Token → Read (List Value)
  | 0, _, _ => .error .notYaml
  | fuel + 1, read, tokens =>
    match tokens with
    | .entry :: .entry :: rest => readEntries fuel (.null :: read) (.entry :: rest)
    | .entry :: rest =>
      match readOptional fuel .block rest with
      | .ok (item, rest) => readEntries fuel (item :: read) rest
      | .error e => .error e
    | _ => .ok (read.reverse, tokens)

/-- A key, if a mark announces one, and its value, if one is announced; `place` says where
they stand. -/
def readPair : Nat → Place → List Token → Read (String × Value)
  | 0, _, _ => .error .notYaml
  | fuel + 1, place, tokens =>
    let name := match tokens with
      | .key :: rest => readOptional fuel place rest
      | _ => readNode fuel place tokens
    match name with
    | .error e => .error e
    | .ok (name, rest) =>
      match keyText name, rest with
      | .error e, _ => .error e
      | .ok name, .value :: rest =>
        (readOptional fuel place rest).map fun (v, rest) => ((name, v), rest)
      | .ok name, rest => .ok ((name, .null), rest)

/-- The keys and values of a block up to its end; `read` holds those read, latest first. -/
def readFields : Nat → List (String × Value) → List Token → Read Value
  | 0, _, _ => .error .notYaml
  | fuel + 1, read, tokens =>
    match tokens with
    | .close :: rest => .ok (.object (Fields.ofPairs read.reverse), rest)
    | .key :: _ =>
      match readPair fuel .field tokens with
      | .ok (pair, rest) => readFields fuel (pair :: read) rest
      | .error e => .error e
    | _ => .error .notYaml

/-- The entries between brackets, of which one can be a single key with its value. -/
def readFlowEntries : Nat → List Value → List Token → Read Value
  | 0, _, _ => .error .notYaml
  | fuel + 1, read, tokens =>
    match tokens with
    | .closeFlowEntries :: rest => .ok (.list read.reverse, rest)
    | _ =>
      let item : Read Value := match tokens with
        | .key :: _ =>
          (readPair fuel .flow tokens).map fun (pair, rest) => (.object [pair], rest)
        | _ => readNode fuel .flow tokens
      match item with
      | .error e => .error e
      | .ok (item, .comma :: rest) => readFlowEntries fuel (item :: read) rest
      | .ok (item, .closeFlowEntries :: rest) => .ok (.list (item :: read).reverse, rest)
      | .ok _ => .error .notYaml

/-- The keys and values between braces; a value can be missing. -/
def readFlowFields : Nat → List (String × Value) → List Token → Read Value
  | 0, _, _ => .error .notYaml
  | fuel + 1, read, tokens =>
    match tokens with
    | .closeFlowMapping :: rest => .ok (.object (Fields.ofPairs read.reverse), rest)
    | _ =>
      match readPair fuel .flow tokens with
      | .error e => .error e
      | .ok (pair, .comma :: rest) => readFlowFields fuel (pair :: read) rest
      | .ok (pair, .closeFlowMapping :: rest) =>
        .ok (.object (Fields.ofPairs (pair :: read).reverse), rest)
      | .ok _ => .error .notYaml

end

/-- Whether nothing but marks after the document is left. -/
def isOver (tokens : List Token) : Bool :=
  tokens.all fun t => match t with
    | .separator ends => ends
    | _ => false

/-- The value of the document that some tokens hold. -/
def document (tokens : List Token) : Except Failure Value :=
  let body := match tokens with
    | .separator false :: rest => rest
    | _ => tokens
  let announced := match tokens with
    | .separator false :: _ => true
    | _ => false
  let empty := body.isEmpty || (announced && isOver body)
  if empty then .ok .null
  else match readNode (3 * body.length + 3) .block body with
    | .ok (v, rest) => if isOver rest then .ok v else .error .notYaml
    | .error e => .error e

end Yaml

/-- The value of a document of settings. -/
def Value.ofYaml (s : String) : Except Failure Value :=
  match Yaml.tokens s with
  | some tokens => Yaml.document tokens
  | none => .error .notYaml

end Vesting
