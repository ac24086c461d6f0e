import PlanAudit.Finding

/-! Tasks have ids of their own, depend on each other without a cycle and are described. -/
namespace PlanAudit.Rule

/-- The entries of a list that are among `seen` or occur earlier in the list. -/
def repeats (seen : Std.HashSet String) : List String → List String
  | [] => []
  | id :: ids => if seen.contains id then id :: repeats seen ids else repeats (seen.insert id) ids

def repeatedIds (population : TaskPopulation) : List Finding :=
  (repeats ∅ population.ids).map (.repeatedId population.area)

def unknownDependencies (population : TaskPopulation) : List Finding :=
  let declared := Std.HashSet.ofList population.ids
  population.tasks.flatMap fun task =>
    (task.dependsOn.filter (!declared.contains ·)).map
      (.unknownDependency population.area task.label)

def circularDependencies (population : TaskPopulation) : List Finding :=
  (DependencyGraph.ofTasks population.tasks).backEdges.map (.circularDependency population.area)

/-- A task without a description is not judged. -/
def thinDescription (area : String) (task : Task) : List Finding :=
  match task.description with
  | none => []
  | some description =>
    let words := Text.wordCount description
    if words < leastWords then [.shortDescription area task.label words]
    else if words < detailedWords then [.briefDescription area task.label words]
    else []

def thinDescriptions (population : TaskPopulation) : List Finding :=
  population.tasks.flatMap (thinDescription population.area)

end PlanAudit.Rule
