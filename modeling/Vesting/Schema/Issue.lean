/-
# Issues of input

Input of free form is read into the library's types field by field. Whatever does not
fit is an issue: its kind, the path to the place, and the value found there. A value
that cannot be read at all is rejected with all of its issues together.
-/

import Vesting.Value

namespace Vesting

/-- Where free-form input comes from. Issues about a value's shape are worded after it. -/
inductive Origin
  | values
  | jsonText
  deriving DecidableEq

/-- One step on the way to a place in a value. -/
inductive Step
  | field (name : String)
  | item (index : Nat)
  deriving DecidableEq

/-- What is wrong at a place. -/
inductive IssueKind
  | missing
  | extra
  | notWhole
  | notWholeText
  | wholeTooLong
  | fractional
  | notFinite
  | belowZero
  | above (limit : Nat)
  | notBytes
  | notText
  | notUnicode
  | emptyText
  | notObject
  | notList (origin : Origin)
  | notTuple (origin : Origin)
  | notModel (model : String) (origin : Origin)
  | notBooleanText
  | notBoolean
  | refused (reason : String)
  | frozen
  | unknownAttribute (name : String)
  | notJson
  deriving DecidableEq

namespace IssueKind

/-- The stable code of a kind of issue. -/
def code : IssueKind → String
  | .missing => "missing"
  | .extra => "extra_forbidden"
  | .notWhole => "int_type"
  | .notWholeText => "int_parsing"
  | .wholeTooLong => "int_parsing_size"
  | .fractional => "int_from_float"
  | .notFinite => "finite_number"
  | .belowZero => "greater_than_equal"
  | .above _ => "less_than_equal"
  | .notBytes => "bytes_type"
  | .notText => "string_type"
  | .notUnicode => "string_unicode"
  | .emptyText => "string_too_short"
  | .notObject => "dict_type"
  | .notList _ => "list_type"
  | .notTuple _ => "tuple_type"
  | .notModel _ _ => "model_type"
  | .notBooleanText => "bool_parsing"
  | .notBoolean => "bool_type"
  | .refused _ => "value_error"
  | .frozen => "frozen_instance"
  | .unknownAttribute _ => "no_such_attribute"
  | .notJson => "json_invalid"

/-- The wording of a kind of issue. -/
def message : IssueKind → String
  | .missing => "Field required"
  | .extra => "Extra inputs are not permitted"
  | .notWhole => "Input should be a valid integer"
  | .notWholeText => "Input should be a valid integer, unable to parse string as an integer"
  | .wholeTooLong => "Unable to parse input string as an integer, exceeded maximum size"
  | .fractional => "Input should be a valid integer, got a number with a fractional part"
  | .notFinite => "Input should be a finite number"
  | .belowZero => "Input should be greater than or equal to 0"
  | .above limit => s!"Input should be less than or equal to {limit}"
  | .notBytes => "Input should be a valid bytes"
  | .notText => "Input should be a valid string"
  | .notUnicode =>
    "Input should be a valid string, unable to parse raw data as a unicode string"
  | .emptyText => "String should have at least 1 character"
  | .notObject => "Input should be a valid dictionary"
  | .notList .values => "Input should be a valid list"
  | .notList .jsonText => "Input should be a valid array"
  | .notTuple .values => "Input should be a valid tuple"
  | .notTuple .jsonText => "Input should be a valid array"
  | .notModel model .values => s!"Input should be a valid dictionary or instance of {model}"
  | .notModel _ .jsonText => "Input should be an object"
  | .notBooleanText => "Input should be a valid boolean, unable to interpret input"
  | .notBoolean => "Input should be a valid boolean"
  | .refused reason => "Value error, " ++ reason
  | .frozen => "Instance is frozen"
  | .unknownAttribute name => s!"Object has no attribute '{name}'"
  | .notJson => "Invalid JSON"

end IssueKind

/-- An issue: what is wrong, where, and the value found there. -/
structure Issue where
  kind : IssueKind
  path : List Step
  input : Value

/-- The same issue seen from one step further out. -/
def Issue.under (step : Step) (issue : Issue) : Issue :=
  { issue with path := step :: issue.path }

/-- Input that was rejected: the model it was read for and all of its issues. -/
structure Rejection where
  model : String
  issues : List Issue

/-- The rejection of a change to a value that cannot be changed. -/
def Rejection.frozen (model name : String) (v : Value) : Rejection :=
  ⟨model, [⟨.frozen, [.field name], v⟩]⟩

namespace Value

/-- A path as a list of names and indices. -/
def ofPath (path : List Step) : Value :=
  .list (path.map fun
    | .field name => .text name
    | .item index => .int index)

/-- An issue as a value. Text that is no JSON has nothing to show but its code. -/
def ofIssue (issue : Issue) : Value :=
  match issue.kind with
  | .notJson => .object [("type", .text issue.kind.code)]
  | kind => .object [("type", .text kind.code), ("loc", ofPath issue.path),
      ("msg", .text kind.message), ("input", issue.input)]

end Value

end Vesting
