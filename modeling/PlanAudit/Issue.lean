import PlanAudit.Json.Decode
import PlanAudit.Text.Case

/-! Issues: what is wrong with a plan, how grave it is and how to mend it. -/
namespace PlanAudit

/-- A text that names none of the things it should name. -/
inductive UnknownName where
  | severity (given : String)
  | verdict (given : String)
  deriving Repr, DecidableEq

def UnknownName.message : UnknownName → String
  | severity given => s!"Invalid severity: {given}"
  | verdict given => s!"Invalid verdict: {given}"

inductive Severity where
  | critical
  | major
  | minor
  deriving Repr, DecidableEq

namespace Severity

def all : List Severity :=
  [critical, major, minor]

def name : Severity → String
  | critical => "critical"
  | major => "major"
  | minor => "minor"

/-- What one issue takes off the score. -/
def penalty : Severity → Nat
  | critical => 10
  | major => 5
  | minor => 1

/-- The severity that a text names, in letters of either case. -/
def parse (text : String) : Except UnknownName Severity :=
  match all.find? (·.name.toList == Text.lower text.toList) with
  | some severity => .ok severity
  | none => .error (.severity text)

def ofJson : Json.Decoder Severity :=
  Json.asVariant (all.map fun severity => (severity.name, severity))

end Severity

/-- The area is the section that the issue is about, or `document` for the plan as a whole. -/
structure Issue where
  severity : Severity
  area : String
  message : String
  suggestion : String
  deriving Repr, DecidableEq

namespace Issue

/-- The issue on one line. -/
def summary (issue : Issue) : String :=
  s!"[{issue.severity.name}] {issue.area}: {issue.message}"

def toJson (issue : Issue) : Json :=
  .object [
    ("severity", .string issue.severity.name),
    ("section", .string issue.area),
    ("issue", .string issue.message),
    ("suggestion", .string issue.suggestion)]

def recordName : String :=
  "Issue"

/-- An issue is an object, or an array of its fields in their order. -/
def ofJson : Json.Decoder Issue
  | .object members => do
    Json.checkMembers [
      ("severity", Severity.ofJson.check),
      ("section", Json.asString.check),
      ("issue", Json.asString.check),
      ("suggestion", Json.asString.check)] members
    let severity ← Json.field members "severity" Severity.ofJson
    let area ← Json.field members "section" Json.asString
    let message ← Json.field members "issue" Json.asString
    let suggestion ← Json.field members "suggestion" Json.asString
    return { severity, area, message, suggestion }
  | .array items => do
    let severity ← Json.item recordName 4 items 0 Severity.ofJson
    let area ← Json.item recordName 4 items 1 Json.asString
    let message ← Json.item recordName 4 items 2 Json.asString
    let suggestion ← Json.item recordName 4 items 3 Json.asString
    Json.checkLength 4 items
    return { severity, area, message, suggestion }
  | value => .error (.wrongType value (.record recordName))

end Issue

end PlanAudit
