import PlanAudit.Json.Printer

/-! Plans: JSON objects with a metadata block and numbered sections. -/
namespace PlanAudit

def metadataKey : String :=
  "META_DOCUMENTATION"

def sectionsKey : String :=
  "UNIVERSAL_PLANNING_STRUCTURE"

def taskSystemKey : String :=
  "5_task_id_system"

def phasesKey : String :=
  "6_implementation_phases"

def testingKey : String :=
  "7_testing_strategy"

def criteriaKey : String :=
  "8_success_criteria"

/-- The sections that every plan has. -/
def builtInSections : List String :=
  ["0_preparation", "1_executive_summary", "2_risk_assessment", "3_current_state_analysis",
   "4_key_features", taskSystemKey, phasesKey, testingKey, criteriaKey,
   "9_implementation_checklist"]

/-- A plan is given by the members of its outermost object. -/
structure Plan where
  root : Json.Members

namespace Plan

def toJson (plan : Plan) : Json :=
  .object plan.root

/-- The text that is searched for wording. -/
def text [Json.FloatFormat] (plan : Plan) : String :=
  plan.toJson.compact

/-- A metadata block that is null counts as none. -/
def metadata? (plan : Plan) : Option Json :=
  (plan.root.get? metadataKey).filter (!·.isNull)

/-- The object that holds the sections. -/
def sections? (plan : Plan) : Option Json.Members :=
  (plan.root.get? sectionsKey).bind Json.object?

theorem sections?_eq_some_iff {plan : Plan} {sections : Json.Members} :
    plan.sections? = some sections ↔ plan.root.get? sectionsKey = some (.object sections) :=
  Json.bind_object?_eq_some_iff

def section? (plan : Plan) (name : String) : Option Json :=
  plan.sections?.bind (·.get? name)

def workorder? (plan : Plan) : Option Json.Members :=
  (plan.section? taskSystemKey).bind fun system => (system.get? "workorder").bind Json.object?

/-- The flat list of the task system. -/
def flatTasks? (plan : Plan) : Option (List Json) :=
  (plan.section? taskSystemKey).bind fun system => (system.get? "tasks").bind Json.array?

end Plan

end PlanAudit
