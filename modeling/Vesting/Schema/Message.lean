/-
# The message of a rejection

A person is told how many issues there are and what was read; each issue follows with
its place on one line and, indented, its wording, code, and the value found.
-/

import Vesting.Schema.Issue
import Vesting.Value.Display

namespace Vesting

/-- One step of a path in a message. -/
def Step.text : Step → String
  | .field name => name
  | .item index => toString index

def Issue.lines (issue : Issue) : List String :=
  let place := if issue.path.isEmpty then [] else [".".intercalate (issue.path.map Step.text)]
  place ++ [s!"  {issue.kind.message} [type={issue.kind.code}, " ++
    s!"input_value={Text.abridge issue.input.display}, input_type={issue.input.typeName}]"]

def Rejection.message (r : Rejection) : String :=
  let count := r.issues.length
  let noun := if count = 1 then "error" else "errors"
  "\n".intercalate (s!"{count} validation {noun} for {r.model}" :: r.issues.flatMap Issue.lines)

end Vesting
