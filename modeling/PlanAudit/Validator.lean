import PlanAudit.Check
import PlanAudit.Checklist
import PlanAudit.Report
import PlanAudit.SectionList

/-! The validator: all checks on one plan, and the report on their issues. -/
namespace PlanAudit

/-- The report that belongs to a list of issues. -/
def Report.ofIssues (issues : List Issue) : Report :=
  let score := scoreOf issues
  { verdict := .ofScore score
    score := score
    issues := issues
    checklist := Checklist.project issues
    approved := isApproved score }

structure Validator where
  required : List String
  deriving Repr, DecidableEq

namespace Validator

def origin : String :=
  "gauge_core::validator"

/-- The issues of all checks, one check after the other. -/
def issues (validator : Validator) (plan : Plan) : List Issue :=
  Check.all.foldl (Check.run validator.required plan) []

def validate (validator : Validator) (plan : Plan) : Report :=
  .ofIssues (validator.issues plan)

/-- The notes of the checks, and how many issues each of them adds to those that are there. -/
def checkLog (validator : Validator) (plan : Plan) : List Check → List Issue → List LogEntry
  | [], _ => []
  | check :: checks, issues =>
    let raised := Check.run validator.required plan issues check
    let count := raised.length - issues.length
    check.notes plan ++ [⟨.debug, origin, s!"{check.name} checks raised {count} issue(s)"⟩]
      ++ checkLog validator plan checks raised

/-- What is logged while a plan is validated. -/
def log (validator : Validator) (plan : Plan) : List LogEntry :=
  let report := validator.validate plan
  validator.checkLog plan Check.all [] ++
    [⟨.info, origin, s!"Plan scored {report.score}/100 ({report.verdict.name}) " ++
      s!"with {report.issues.length} issue(s)"⟩]

end Validator

/-- What a validator is built from. -/
structure Setup where
  sectionList : Option SectionList
  deriving Repr, DecidableEq

namespace Setup

def new : Setup :=
  ⟨none⟩

/-- Giving no list leaves the setup as it is. -/
def withSections (setup : Setup) (list : Option SectionList) : Setup :=
  ⟨list.or setup.sectionList⟩

/-- The list from outside takes the place of the built-in one. -/
def build (setup : Setup) : Validator :=
  ⟨(setup.sectionList.map SectionList.names).getD builtInSections⟩

/-- A list that is not the built-in one is worth a warning. -/
def log (setup : Setup) : List LogEntry :=
  match setup.sectionList with
  | none => []
  | some list =>
    if list.diverges then
      [⟨.warn, "gauge_core::validator::builder",
        s!"Schema reference diverges from built-in sections (extra: {Text.quotedList list.extra}, " ++
          s!"missing: {Text.quotedList list.missing})"⟩]
    else []

end Setup

end PlanAudit
