/-
# Verdicts

A proof that is rejected or a distribution that does not add up is a normal answer.
It is given as a verdict: the named checks that ran, in order, whether all went well,
and for a rejected proof a report of the difference. Adding a failed check turns a
verdict bad; nothing turns it good again.
-/

import Vesting.Report

namespace Vesting

/-- One named check and whether it held. -/
structure Check where
  id : String
  ok : Bool
  message : String
  details : Fields

namespace Check

/-- The name of a check in messages about its fields. -/
def model : String := "CheckResult"

def fields (c : Check) : Fields :=
  [("check_id", .text c.id), ("ok", .bool c.ok), ("message", .text c.message),
    ("details", .object c.details)]

/-- A text of at least one character. -/
def readId (v : Value) : Reading String :=
  (Schema.text v).andThen fun s => if s.isEmpty then .issue .emptyText v else .done s

def read (fields : Fields) : Reading Check :=
  Check.mk <$> Schema.required fields "check_id" readId
    <*> Schema.required fields "ok" Schema.boolean
    <*> Schema.optional fields "message" "" Schema.text
    <*> Schema.optional fields "details" [] Schema.object
    <* Schema.only fields ["check_id", "ok", "message", "details"]

/-- Read a check, or reject its fields. -/
def ofFields (fields : Fields) : Except Rejection Check := (read fields).toExcept model

def passed (id : String) : Check := ⟨id, true, "ok", []⟩

def failed (id message : String) (details : Fields) : Check := ⟨id, false, message, details⟩

end Check

/-- The outcome of some checks. -/
structure Verdict where
  ok : Bool
  checks : List Check
  error : Option Report

namespace Verdict

/-- The name of a verdict in messages about its fields. -/
def model : String := "VerificationResult"

/-- A good verdict with the given checks. -/
def success (checks : List Check) : Verdict := ⟨true, checks, none⟩

/-- A bad verdict. It has to name its checks. -/
def failure (checks : Option (List Check)) (error : Option Report) : Except Rejection Verdict :=
  match checks with
  | some checks => .ok ⟨false, checks, error⟩
  | none => .error ⟨model, [⟨.notList .values, [.field "checks"], .null⟩]⟩

def add (v : Verdict) (c : Check) : Verdict :=
  { v with ok := v.ok && c.ok, checks := v.checks ++ [c] }

/-- The verdict of checks that ran one after another. -/
def ofChecks (checks : List Check) : Verdict := checks.foldl add (success [])

def find? (v : Verdict) (id : String) : Option Check := v.checks.find? (·.id == id)

def failures (v : Verdict) : List Check := v.checks.filter fun c => !c.ok

/-- The messages of the checks that failed, in order. -/
def messages (v : Verdict) : List String := v.failures.map (·.message)

/-- The fields of a verdict. Of a report only the fields that all reports have are shown. -/
def fields (v : Verdict) : Fields :=
  [("ok", .bool v.ok), ("checks", .list (v.checks.map fun c => .object c.fields)),
    ("error", v.error.elim .null fun r => .object r.baseFields)]

/-- Adding checks makes a verdict good exactly if it was good and all of them held. -/
theorem ok_foldl_add (checks : List Check) (v : Verdict) :
    (checks.foldl add v).ok = (v.ok && checks.all (·.ok)) := by
  induction checks generalizing v with
  | nil => simp
  | cons c rest ih => rw [List.foldl_cons, ih, List.all_cons, add, Bool.and_assoc]

theorem checks_foldl_add (checks : List Check) (v : Verdict) :
    (checks.foldl add v).checks = v.checks ++ checks := by
  induction checks generalizing v with
  | nil => simp
  | cons c rest ih => rw [List.foldl_cons, ih, add, List.append_assoc, List.singleton_append]

/-- A verdict is good exactly if all of its checks held. -/
theorem ok_ofChecks (checks : List Check) : (ofChecks checks).ok = checks.all (·.ok) := by
  simp [ofChecks, ok_foldl_add, success]

/-- A verdict holds the checks that ran. -/
theorem checks_ofChecks (checks : List Check) : (ofChecks checks).checks = checks := by
  simp [ofChecks, checks_foldl_add, success]

end Verdict

end Vesting
