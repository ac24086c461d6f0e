import PlanAudit.Rule.Coverage
import PlanAudit.Rule.Phases
import PlanAudit.Rule.Sections
import PlanAudit.Rule.Tasks
import PlanAudit.Rule.Wording
import PlanAudit.Rule.Workorder

/-! How the checks go through a plan. All of them raise their issues on one list. -/
namespace PlanAudit

/-- An inspection works on the list of the issues that have been raised so far. -/
abbrev Inspection := StateM (List Issue)

namespace Inspection

def raise (finding : Finding) : Inspection Unit :=
  modify (· ++ [finding.toIssue])

/-- Nothing but the metadata can be looked at without the object that holds the sections. -/
def presence (required : List String) (plan : Plan) : Inspection Unit := do
  if plan.metadata?.isNone then
    raise .missingMetadata
  let some sections := plan.sections?
    | raise .missingContainer
  for name in required do
    if !sections.has name then
      raise (.missingSection name)

def placeholders (text : List Char) : Inspection Unit := do
  for (token, pattern) in Vocabulary.placeholders do
    if let some found := pattern.find? text then
      raise (.placeholder token (String.ofList found.text))

/-- The ids are declared one after the other, and then the dependencies are looked up among them. -/
def taskIds (population : TaskPopulation) : Inspection Unit := do
  let mut declared : Std.HashSet String := ∅
  for id in population.ids do
    if declared.contains id then
      raise (.repeatedId population.area id)
    else
      declared := declared.insert id
  for task in population.tasks do
    for target in task.dependsOn do
      if !declared.contains target then
        raise (.unknownDependency population.area task.label target)

def circularDependencies (population : TaskPopulation) : Inspection Unit := do
  for edge in (DependencyGraph.ofTasks population.tasks).backEdges do
    raise (.circularDependency population.area edge)

def completeness (plan : Plan) : Inspection Unit := do
  placeholders plan.toJson.chars
  taskIds plan.population
  circularDependencies plan.population

def descriptions (population : TaskPopulation) : Inspection Unit := do
  for task in population.tasks do
    let some description := task.description
      | continue
    let words := Text.wordCount description
    if words < leastWords then
      raise (.shortDescription population.area task.label words)
    else if words < detailedWords then
      raise (.briefDescription population.area task.label words)

def phaseFields (phase : Json) (index : Nat) : Inspection Unit := do
  let label := Rule.phaseLabel phase index
  for field in Rule.phaseFields do
    if (phase.get? field).isNone then
      raise (.missingPhaseField label field)

def phaseRatings (key : String) (phase : Json) : Inspection Unit := do
  if let some complexity := phase.get? "complexity" then
    if !Rule.isComplexity complexity then
      raise (.invalidComplexity key complexity)
  if let some effort := phase.get? "effort_level" then
    if !Rule.isEffort effort then
      raise (.invalidEffort key effort)
  if (phase.get? "duration").isSome then
    raise (.deprecatedDuration key)

def phases : PhaseLayout → Inspection Unit
  | .array phases => do
    for (phase, index) in phases.zipIdx do
      phaseFields phase index
  | .keyed phases => do
    for (key, phase) in phases do
      phaseRatings key phase
  | .absent => return

/-- The matches of a pattern in a section are counted, and too few are raised. -/
def coverage (content? : Option Json) (pattern : Pattern) (least : Nat) (finding : Nat → Finding) :
    Inspection Unit := do
  let some content := content?
    | return
  let count := Rule.countIn pattern content
  if count < least then
    raise (finding count)

def quality (plan : Plan) : Inspection Unit := do
  descriptions plan.population
  phases plan.phaseLayout
  coverage (plan.section? criteriaKey) Vocabulary.measurable leastMeasurable .vagueCriteria
  coverage (plan.section? testingKey) Vocabulary.edgeCases leastEdgeCases .fewEdgeCases

/-- Only entries that are objects have to name the workorder. -/
def taskWorkorder (id entry : Json) : Inspection Unit := do
  if !entry.isObject then
    return
  let some task := Task.ofJson? entry
    | return
  match task.workorderId with
  | none => raise (.missingTaskWorkorder task.label id)
  | some found =>
    if !found.same id then
      raise (.wrongTaskWorkorder task.label found id)

/-- A workorder without an id is not looked for in the tasks. -/
def workorder (plan : Plan) : Inspection Unit := do
  let some workorder := plan.workorder?
    | return
  let id := workorder.get? "id"
  match id with
  | none => raise .missingWorkorderId
  | some id =>
    if !Rule.isWorkorderId id then
      raise (.malformedWorkorderId id)
  for field in ["name", "feature_dir"] do
    if !workorder.has field then
      raise (.missingWorkorderField field)
  let some id := id
    | return
  for entry in Rule.workorderTasks plan workorder do
    taskWorkorder id entry

def autonomy (text : List Char) : Inspection Unit := do
  for found in (Vocabulary.ambiguous.matchesIn text).take Rule.reportLimit do
    raise (.ambiguousWording (String.ofList found.text) (Rule.excerptAt text found))
  for found in (Vocabulary.questions.matchesIn text).take Rule.reportLimit do
    raise (.openQuestion (Rule.excerptAt text found))

def timePolicy (text : List Char) : Inspection Unit := do
  let keywords := Rule.timeKeywordsIn text
  if keywords.isEmpty then
    return
  raise (.timeEstimates keywords)

end Inspection

end PlanAudit
