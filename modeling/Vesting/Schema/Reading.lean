/-
# Reading free-form input

A reading either has a result or has at least one issue. Readings are combined so that
all issues are kept, in the order in which the parts were named; an object is read by
naming its fields in the order of their declaration and then forbidding all others.
Whole numbers are read leniently, from booleans, from numbers without a fraction and
from text; text and bytes are not taken for one another except where a field says so.
-/

import Vesting.Schema.Issue
import Vesting.Text.Utf8
import Vesting.Text.WholeNumber

namespace Vesting

/-- The outcome of reading input: a result, or the issues found. -/
inductive Reading (α : Type) where
  | done (a : α)
  | issues (found : List Issue)

namespace Reading

variable {α β : Type}

def map (f : α → β) : Reading α → Reading β
  | done a => done (f a)
  | issues found => issues found

/-- Combine two readings; the issues of both are kept. -/
def seq (f : Reading (α → β)) (a : Unit → Reading α) : Reading β :=
  match f, a () with
  | done f, done a => done (f a)
  | done _, issues found => issues found
  | issues found, done _ => issues found
  | issues first, issues second => issues (first ++ second)

instance : Applicative Reading where
  pure := done
  map := map
  seq := seq

/-- A reading with one issue about `input`. -/
def issue (kind : IssueKind) (input : Value) : Reading α := issues [⟨kind, [], input⟩]

/-- Continue with the result, unless there are issues. -/
def andThen (a : Reading α) (next : α → Reading β) : Reading β :=
  match a with
  | done a => next a
  | issues found => issues found

/-- The same reading with its issues seen from one step further out. -/
def under (step : Step) : Reading α → Reading α
  | done a => done a
  | issues found => issues (found.map (Issue.under step))

/-- Read the items of a list, from `index` on. -/
def items (read : Value → Reading α) : Nat → List Value → Reading (List α)
  | _, [] => done []
  | index, v :: rest =>
    seq (map List.cons (under (.item index) (read v))) fun _ => items read (index + 1) rest

/-- The result for a model, or its rejection. -/
def toExcept (model : String) : Reading α → Except Rejection α
  | done a => .ok a
  | issues found => .error ⟨model, found⟩

end Reading

namespace Schema

variable {α : Type}

/-- A field that has to be present. Its absence is an issue of the whole object. -/
def required (fields : Fields) (name : String) (read : Value → Reading α) : Reading α :=
  match fields.get? name with
  | some v => (read v).under (.field name)
  | none => .issues [⟨.missing, [.field name], .object fields⟩]

def optional (fields : Fields) (name : String) (default : α) (read : Value → Reading α) :
    Reading α :=
  match fields.get? name with
  | some v => (read v).under (.field name)
  | none => .done default

/-- Forbid all fields but the named ones. -/
def only (fields : Fields) (names : List String) : Reading Unit :=
  match fields.filter fun field => !names.contains field.1 with
  | [] => .done ()
  | extra => .issues (extra.map fun (name, v) => ⟨.extra, [.field name], v⟩)

/-- The fields of an object that a model is read from. -/
def fieldsOf (model : String) (origin : Origin) (v : Value) : Reading Fields :=
  match v with
  | .object fields => .done fields
  | _ => .issue (.notModel model origin) v

def wholeOfText (input : Value) (s : String) : Reading Int :=
  match Text.readFieldNumber s with
  | .ok n => .done n
  | .error .notNumber => .issue .notWholeText input
  | .error (.tooLong _) => .issue .wholeTooLong input

/-- Whether a number lies strictly between the bounds of signed words of sixty-four bits. -/
def isWord (n : Int) : Bool := -0x8000000000000000 < n && n < 0x8000000000000000

/-- A whole number. A floating-point number has to have no fraction and to lie strictly
between the bounds of signed words of sixty-four bits. -/
def whole (v : Value) : Reading Int :=
  match v with
  | .bool b => .done (if b then 1 else 0)
  | .int n => .done n
  | .float (.finite negative significand exponent) =>
    match Binary64.toInt? (.finite negative significand exponent) with
    | none => .issue .fractional v
    | some n => if isWord n then .done n else .issue .wholeTooLong v
  | .float _ => .issue .notFinite v
  | .text s => wholeOfText v s
  | .bytes b =>
    match Text.ofUtf8 b with
    | .ok s => wholeOfText v s
    | .error _ => .issue .notWholeText v
  | _ => .issue .notWhole v

/-- A whole number from zero to a limit. -/
def natural (limit : Nat) (v : Value) : Reading Nat :=
  (whole v).andThen fun n =>
    if n < 0 then .issue .belowZero v
    else if limit < n.toNat then .issue (.above limit) v
    else .done n.toNat

/-- A whole number that fits a word of sixty-four bits. -/
def word (v : Value) : Reading UInt64 := (natural 0xffffffffffffffff v).map UInt64.ofNat

/-- A whole number that fits a byte. -/
def byte (v : Value) : Reading UInt8 := (natural 0xff v).map UInt8.ofNat

/-- A text; bytes are read as the text they spell. -/
def text (v : Value) : Reading String :=
  match v with
  | .text s => .done s
  | .bytes b =>
    match Text.ofUtf8 b with
    | .ok s => .done s
    | .error _ => .issue .notUnicode v
  | _ => .issue .notText v

def textOrNull (v : Value) : Reading (Option String) :=
  match v with
  | .null => .done none
  | _ => (text v).map some

def wholeOrNull (v : Value) : Reading (Option Int) :=
  match v with
  | .null => .done none
  | _ => (whole v).map some

def object (v : Value) : Reading Fields :=
  match v with
  | .object fields => .done fields
  | _ => .issue .notObject v

/-- The texts that are read as a boolean, in lower case. -/
def booleanTexts : List (String × Bool) :=
  [("0", false), ("1", true), ("t", true), ("f", false), ("true", true), ("false", false),
    ("y", true), ("n", false), ("yes", true), ("no", false), ("on", true), ("off", false)]

def booleanOfText (input : Value) (s : String) : Reading Bool :=
  let lower := String.ofList (s.toList.map Char.toLower)
  match booleanTexts.lookup lower with
  | some b => .done b
  | none => .issue .notBooleanText input

/-- A boolean read from a number: zero and one are. -/
def booleanOfWhole (input : Value) (n : Int) : Reading Bool :=
  if n = 0 then .done false
  else if n = 1 then .done true
  else if isWord n || n = -0x8000000000000000 then .issue .notBooleanText input
  else .issue .notBoolean input

def boolean (v : Value) : Reading Bool :=
  match v with
  | .bool b => .done b
  | .int n => booleanOfWhole v n
  | .float x =>
    match x.toInt? with
    | some n => if isWord n then booleanOfWhole v n else .issue .notBoolean v
    | none => .issue .notBoolean v
  | .text s => booleanOfText v s
  | .bytes b =>
    match Text.ofUtf8 b with
    | .ok s => booleanOfText v s
    | .error _ => .issue .notBooleanText v
  | _ => .issue .notBoolean v

end Schema

end Vesting
