import PlanAudit.Inspection
import PlanAudit.LogEntry

/-! The six checks that a plan goes through, each made of rules. -/
namespace PlanAudit

inductive Check where
  | presence
  | completeness
  | quality
  | workorder
  | autonomy
  | timePolicy
  deriving Repr, DecidableEq

namespace Check

/-- The checks in the order in which they run. -/
def all : List Check :=
  [presence, completeness, quality, workorder, autonomy, timePolicy]

def name : Check → String
  | presence => "structure"
  | completeness => "completeness"
  | quality => "quality"
  | workorder => "workorder"
  | autonomy => "autonomy"
  | timePolicy => "time_policy"

def ofName? (name : String) : Option Check :=
  all.find? (·.name == name)

/-- What a check finds in a plan, rule by rule. -/
def findings (required : List String) (plan : Plan) : Check → List Finding
  | presence => Rule.missingMetadata plan ++ Rule.missingSections required plan
  | completeness =>
    Rule.placeholders plan.toJson.chars ++ Rule.repeatedIds plan.population
      ++ Rule.unknownDependencies plan.population ++ Rule.circularDependencies plan.population
  | quality =>
    Rule.thinDescriptions plan.population ++ Rule.phaseFaults plan.phaseLayout
      ++ Rule.vagueCriteria plan ++ Rule.fewEdgeCases plan
  | workorder => Rule.workorderFaults plan
  | autonomy => Rule.ambiguousWording plan.toJson.chars ++ Rule.openQuestions plan.toJson.chars
  | timePolicy => Rule.timeEstimates plan.toJson.chars

def inspection (required : List String) (plan : Plan) : Check → Inspection Unit
  | presence => .presence required plan
  | completeness => .completeness plan
  | quality => .quality plan
  | workorder => .workorder plan
  | autonomy => .autonomy plan.toJson.chars
  | timePolicy => .timePolicy plan.toJson.chars

/-- Let a check work on the issues of earlier ones. -/
def run (required : List String) (plan : Plan) (issues : List Issue) (check : Check) : List Issue :=
  ((check.inspection required plan).run issues).2

/-- What a check says while it works. -/
def notes (plan : Plan) : Check → List LogEntry
  | completeness =>
    let g := DependencyGraph.ofTasks plan.population.tasks
    [⟨.debug, "gauge_core::checks::completeness",
      s!"Dependency graph has {g.nodes.size} task(s) and {g.backEdges.length} back-edge(s)"⟩]
  | timePolicy =>
    match Rule.timeKeywordsIn plan.toJson.chars with
    | [] => []
    | keywords =>
      [⟨.debug, "gauge_core::checks::time_policy",
        s!"Time-based keywords present: {Text.quotedList keywords}"⟩]
  | _ => []

end Check

end PlanAudit
