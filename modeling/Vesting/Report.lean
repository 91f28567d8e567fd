/-
# Error reports

A report is an error handed over as data: a code, a message and details, and for some
kinds the facts of the case. Reports are read from free-form fields, can be changed one
field at a time under the same rules, and correspond to refusals in both directions.
-/

import Vesting.Refusal
import Vesting.Schema.Reading

namespace Vesting

/-- The kinds of report. -/
inductive ReportKind
  | plain
  | record
  | proof
  | root
  deriving DecidableEq

/-- The facts that a report adds, by its kind. -/
inductive ReportFacts
  | plain
  /-- The place of a record in its batch, the field, and what it should be and is. -/
  | record (index : Option Int) (field expected actual : Option String)
  /-- The root that a proof was checked against, and the one it leads to. -/
  | proof (expected computed : Option String)
  /-- The root that a rotation would keep. -/
  | root (root : Option String)
  deriving DecidableEq

/-- An error as data. -/
structure Report where
  code : String
  message : String
  details : Fields
  facts : ReportFacts

namespace ReportKind

/-- The name that a kind of report has in messages about its fields. -/
def model : ReportKind → String
  | .plain => "RootlockError"
  | .record => "ValidationError"
  | .proof => "ProofMismatchError"
  | .root => "DuplicateRootError"

/-- The code that a kind of report has when none is given. -/
def defaultCode : ReportKind → Option String
  | .plain => none
  | .record => some "RECORD_VALIDATION_ERROR"
  | .proof => some "MERKLE_PROOF_INVALID"
  | .root => some "DUPLICATE_ROOT"

/-- The names of the facts of a kind of report. -/
def factNames : ReportKind → List String
  | .plain => []
  | .record => ["record_index", "field_path", "expected", "actual"]
  | .proof => ["expected_root", "computed_root"]
  | .root => ["root"]

/-- The names of all fields, in order. -/
def fieldNames (kind : ReportKind) : List String :=
  ["code", "message", "details"] ++ kind.factNames

end ReportKind

namespace Report

def kind (r : Report) : ReportKind :=
  match r.facts with
  | .plain => .plain
  | .record .. => .record
  | .proof .. => .proof
  | .root .. => .root

/-- The facts of a report as fields. -/
def factFields : ReportFacts → Fields
  | .plain => []
  | .record index field expected actual =>
    [("record_index", index.elim .null .int), ("field_path", .ofText? field),
      ("expected", .ofText? expected), ("actual", .ofText? actual)]
  | .proof expected computed =>
    [("expected_root", .ofText? expected), ("computed_root", .ofText? computed)]
  | .root root => [("root", .ofText? root)]

/-- The three fields that all reports have. -/
def baseFields (r : Report) : Fields :=
  [("code", .text r.code), ("message", .text r.message), ("details", .object r.details)]

def fields (r : Report) : Fields := r.baseFields ++ factFields r.facts

/-- The fields of a report that are not null. -/
def presentFields (r : Report) : Fields :=
  r.fields.filter fun field => match field.2 with
    | .null => false
    | _ => true

/-- Read the facts of a kind of report. -/
def readFacts (kind : ReportKind) (fields : Fields) : Reading ReportFacts :=
  let text (name : String) := Schema.optional fields name none Schema.textOrNull
  match kind with
  | .plain => pure .plain
  | .record =>
    .record <$> Schema.optional fields "record_index" none Schema.wholeOrNull
      <*> text "field_path" <*> text "expected" <*> text "actual"
  | .proof => .proof <$> text "expected_root" <*> text "computed_root"
  | .root => .root <$> text "root"

def read (kind : ReportKind) (fields : Fields) : Reading Report :=
  let code := match kind.defaultCode with
    | none => Schema.required fields "code" Schema.text
    | some code => Schema.optional fields "code" code Schema.text
  Report.mk <$> code
    <*> Schema.required fields "message" Schema.text
    <*> Schema.optional fields "details" [] Schema.object
    <*> readFacts kind fields
    <* Schema.only fields kind.fieldNames

/-- Read a report of a kind, or reject its fields. -/
def ofFields (kind : ReportKind) (fields : Fields) : Except Rejection Report :=
  (read kind fields).toExcept kind.model

/-- Change one field. The new value is read as the field of a new report would be, and a
value that is rejected changes nothing. -/
def assign (r : Report) (name : String) (v : Value) : Except Rejection Report :=
  if r.kind.fieldNames.contains name then
    let changed := r.fields.put name v
    (read r.kind changed).toExcept r.kind.model
  else .error ⟨r.kind.model, [⟨.unknownAttribute name, [.field name], v⟩]⟩

/-- The refusal that a report stands for. A report about a record keeps its place; the
facts of other reports are not carried over. -/
def toRefusal (r : Report) : Refusal :=
  match r.facts with
  | .record index field _ _ => .invalidRecord r.message index field r.details
  | _ => .general r.message r.code r.details

end Report

def Refusal.toReport (r : Refusal) : Report :=
  let facts := match r with
    | .duplicateRoot root => .root (some root)
    | _ => .plain
  ⟨r.code, r.message, r.details, facts⟩

end Vesting
