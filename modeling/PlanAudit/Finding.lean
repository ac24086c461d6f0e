import PlanAudit.Dependency.Search
import PlanAudit.Issue

/-! Findings: what a rule has found in a plan. An issue is a finding put into words. -/
namespace PlanAudit

/-- Findings about tasks carry the section that declares them as their `area`. -/
inductive Finding where
  | missingMetadata
  | missingContainer
  | missingSection (name : String)
  | placeholder (token found : String)
  | repeatedId (area id : String)
  | unknownDependency (area task target : String)
  | circularDependency (area : String) (edge : BackEdge)
  | shortDescription (area task : String) (words : Nat)
  | briefDescription (area task : String) (words : Nat)
  | missingPhaseField (phase field : String)
  | invalidComplexity (phase : String) (value : Json)
  | invalidEffort (phase : String) (value : Json)
  | deprecatedDuration (phase : String)
  | vagueCriteria (count : Nat)
  | fewEdgeCases (count : Nat)
  | missingWorkorderId
  | malformedWorkorderId (id : Json)
  | missingWorkorderField (field : String)
  | missingTaskWorkorder (task : String) (expected : Json)
  | wrongTaskWorkorder (task : String) (found expected : Json)
  | ambiguousWording (found excerpt : String)
  | openQuestion (excerpt : String)
  | timeEstimates (keywords : List String)

/-- The least number of words that a description needs, and the number that makes it detailed. -/
def leastWords : Nat :=
  10

def detailedWords : Nat :=
  20

def leastMeasurable : Nat :=
  3

def leastEdgeCases : Nat :=
  5

def complexityLevels : List String :=
  ["low", "medium", "high", "very_high"]

/-- A text without its quotation marks, any other value as JSON. -/
def Json.plain : Json → String
  | .string s => s
  | value => value.compact

namespace Finding

/-- The area of findings that concern the plan as a whole. -/
def wholeDocument : String :=
  "document"

def severity : Finding → Severity
  | missingMetadata => .critical
  | missingContainer => .critical
  | missingSection _ => .critical
  | placeholder _ _ => .major
  | repeatedId _ _ => .critical
  | unknownDependency _ _ _ => .critical
  | circularDependency _ _ => .critical
  | shortDescription _ _ _ => .major
  | briefDescription _ _ _ => .minor
  | missingPhaseField _ _ => .major
  | invalidComplexity _ _ => .minor
  | invalidEffort _ _ => .minor
  | deprecatedDuration _ => .minor
  | vagueCriteria _ => .major
  | fewEdgeCases _ => .major
  | missingWorkorderId => .critical
  | malformedWorkorderId _ => .major
  | missingWorkorderField _ => .major
  | missingTaskWorkorder _ _ => .major
  | wrongTaskWorkorder _ _ _ => .critical
  | ambiguousWording _ _ => .major
  | openQuestion _ => .major
  | timeEstimates _ => .major

def area : Finding → String
  | missingMetadata => metadataKey
  | missingContainer => sectionsKey
  | missingSection name => name
  | placeholder _ _ => wholeDocument
  | repeatedId area _ => area
  | unknownDependency area _ _ => area
  | circularDependency area _ => area
  | shortDescription area _ _ => area
  | briefDescription area _ _ => area
  | missingPhaseField _ _ => phasesKey
  | invalidComplexity _ _ => phasesKey
  | invalidEffort _ _ => phasesKey
  | deprecatedDuration _ => phasesKey
  | vagueCriteria _ => criteriaKey
  | fewEdgeCases _ => testingKey
  | missingWorkorderId => taskSystemKey
  | malformedWorkorderId _ => taskSystemKey
  | missingWorkorderField _ => taskSystemKey
  | missingTaskWorkorder _ _ => taskSystemKey
  | wrongTaskWorkorder _ _ _ => taskSystemKey
  | ambiguousWording _ _ => wholeDocument
  | openQuestion _ => wholeDocument
  | timeEstimates _ => wholeDocument

def message : Finding → String
  | missingMetadata => s!"Missing {metadataKey} block"
  | missingContainer => s!"Missing {sectionsKey} container"
  | missingSection name => s!"Missing required section: {name}"
  | placeholder _ found => s!"Placeholder text found: \"{found}\""
  | repeatedId _ id => s!"Duplicate task ID: {id}"
  | unknownDependency _ task target =>
    s!"Unknown dependency: {task} depends on {target}, which is not declared"
  | circularDependency _ edge =>
    s!"Circular dependency detected: {edge.source} -> {edge.target}"
  | shortDescription _ task words => s!"Task description too short: {task} has {words} words"
  | briefDescription _ task words =>
    s!"Task description could be more detailed: {task} has {words} words"
  | missingPhaseField phase field => s!"Phase missing required field: {phase} lacks '{field}'"
  | invalidComplexity phase value => s!"Invalid complexity: {phase} has {value.compact}"
  | invalidEffort phase value => s!"Invalid effort_level: {phase} has {value.compact}"
  | deprecatedDuration phase => s!"Deprecated field: {phase} uses 'duration'"
  | vagueCriteria count =>
    s!"Success criteria not measurable: {count} measurable values found, " ++
      s!"need at least {leastMeasurable}"
  | fewEdgeCases count =>
    s!"Insufficient edge case coverage: {count} edge case terms found, " ++
      s!"need at least {leastEdgeCases}"
  | missingWorkorderId => "Workorder missing id"
  | malformedWorkorderId id => s!"Invalid workorder ID format: {id.plain}"
  | missingWorkorderField field => s!"Workorder missing {field}"
  | missingTaskWorkorder task _ => s!"Task missing workorder_id: {task}"
  | wrongTaskWorkorder task found expected =>
    s!"Workorder ID mismatch: {task} has {found.plain}, expected {expected.plain}"
  | ambiguousWording found excerpt => s!"Ambiguous language: \"{found}\" in \"{excerpt}\""
  | openQuestion excerpt => s!"Unresolved question: \"{excerpt}\""
  | timeEstimates keywords => "Time-based estimates found: " ++ ", ".intercalate keywords

def suggestion : Finding → String
  | missingMetadata => "Add a metadata block describing the feature, version and status"
  | missingContainer => "Wrap the numbered plan sections in a top-level sections object"
  | missingSection name => s!"Add the {name} section to {sectionsKey}"
  | placeholder token _ => s!"Replace every \"{token}\" with concrete content"
  | repeatedId _ id => s!"Give every task a unique ID; {id} is declared more than once"
  | unknownDependency _ _ target => s!"Declare {target} or remove it from depends_on"
  | circularDependency _ _ =>
    "Break the cycle so that tasks can be executed in dependency order"
  | shortDescription _ task _ =>
    s!"Describe what {task} changes, where, and how it is verified " ++
      s!"in at least {detailedWords} words"
  | briefDescription _ _ _ => s!"Expand the description to at least {detailedWords} words"
  | missingPhaseField phase field => s!"Add '{field}' to {phase}"
  | invalidComplexity _ _ => "Use one of: " ++ ", ".intercalate complexityLevels
  | invalidEffort _ _ => "Use an integer effort level from 1 to 5"
  | deprecatedDuration _ =>
    "Remove 'duration'; rate phases by complexity and effort_level instead"
  | vagueCriteria _ =>
    "State targets with numbers, percentages, limits or comparisons " ++
      "(e.g. 'p95 latency <= 200 ms')"
  | fewEdgeCases _ =>
    "Describe boundary, empty, null, invalid-input and error scenarios the tests cover"
  | missingWorkorderId =>
    "Add an id of the form WO-\x7bFEATURE-NAME\x7d-001 to the workorder"
  | malformedWorkorderId _ =>
    "Use the form WO-\x7bFEATURE-NAME\x7d-001 with an uppercase feature name"
  | missingWorkorderField field => s!"Add '{field}' to the workorder"
  | missingTaskWorkorder task expected => s!"Set workorder_id to {expected.plain} on {task}"
  | wrongTaskWorkorder task _ expected => s!"Change workorder_id on {task} to {expected.plain}"
  | ambiguousWording _ _ => "Replace hedged wording with a definite decision"
  | openQuestion _ => "Answer the question in the plan and record the decision"
  | timeEstimates _ => "Remove time estimates; rate work by complexity and effort level instead"

def toIssue (finding : Finding) : Issue :=
  ⟨finding.severity, finding.area, finding.message, finding.suggestion⟩

end Finding

end PlanAudit
