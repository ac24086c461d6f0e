import PlanAudit.Score

/-! The report on a plan. -/
namespace PlanAudit

/-- The checklist says of each named check whether the plan passed it. -/
structure Report where
  verdict : Verdict
  score : UInt8
  issues : List Issue
  checklist : SortedMap Bool
  approved : Bool

namespace Report

def count (report : Report) (severity : Severity) : Nat :=
  report.issues.countP (·.severity == severity)

/-- The names of the checks that the plan failed, in ascending order. -/
def failedChecks (report : Report) : List String :=
  (report.checklist.entries.filter (!·.2)).map (·.1)

/-- The report on one line. -/
def summary (report : Report) : String :=
  s!"{report.verdict.name} ({report.score}/100): {report.count .critical} critical, " ++
    s!"{report.count .major} major, {report.count .minor} minor"

def toJson (report : Report) : Json :=
  .object [
    ("verdict", .string report.verdict.name),
    ("score", .integer report.score.toNat),
    ("issues", .array (report.issues.map Issue.toJson)),
    ("checklist", .object (report.checklist.entries.map fun (name, passed) => (name, .bool passed))),
    ("approved", .bool report.approved)]

def recordName : String :=
  "ValidationResult"

/-- A report is an object, or an array of its fields in their order. -/
def ofJson : Json.Decoder Report
  | .object members => do
    Json.checkMembers [
      ("verdict", Verdict.ofJson.check),
      ("score", Json.asByte.check),
      ("issues", (Json.asList Issue.ofJson).check),
      ("checklist", (Json.asMap Json.asBool).check),
      ("approved", Json.asBool.check)] members
    let verdict ← Json.field members "verdict" Verdict.ofJson
    let score ← Json.field members "score" Json.asByte
    let issues ← Json.field members "issues" (Json.asList Issue.ofJson)
    let checklist ← Json.field members "checklist" (Json.asMap Json.asBool)
    let approved ← Json.field members "approved" Json.asBool
    return { verdict, score, issues, checklist, approved }
  | .array items => do
    let verdict ← Json.item recordName 5 items 0 Verdict.ofJson
    let score ← Json.item recordName 5 items 1 Json.asByte
    let issues ← Json.item recordName 5 items 2 (Json.asList Issue.ofJson)
    let checklist ← Json.item recordName 5 items 3 (Json.asMap Json.asBool)
    let approved ← Json.item recordName 5 items 4 Json.asBool
    Json.checkLength 5 items
    return { verdict, score, issues, checklist, approved }
  | value => .error (.wrongType value (.record recordName))

end Report

end PlanAudit
