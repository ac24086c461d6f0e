import PlanAudit.Plan.Phase
import PlanAudit.Text.Blank

/-! Tasks, and which of them count. -/
namespace PlanAudit

/-- The workorder that a task names may be any value. -/
structure Task where
  id : Option String
  description : Option String
  dependsOn : List String
  workorderId : Option Json

namespace Task

/-- What a task depends on: a list, of which only the texts count, or a single text. -/
def dependenciesOf : Option Json → List String
  | some (.array items) => items.filterMap Json.string?
  | some (.string id) => [id]
  | _ => []

/-- An object is a full record, and a text declares an id, without the blanks around it. -/
def ofJson? : Json → Option Task
  | .string id =>
    some {
      id := some (String.ofList (Text.trim id.toList))
      description := none
      dependsOn := []
      workorderId := none }
  | .object members =>
    let record := Json.object members
    some {
      id := (record.get? "id").bind Json.string?
      description := (record.get? "description").bind Json.string?
      dependsOn := dependenciesOf (record.get? "depends_on")
      workorderId := record.get? "workorder_id" }
  | _ => none

/-- The task's name in messages. -/
def label (task : Task) : String :=
  task.id.getD "(unnamed task)"

end Task

/-- The tasks of a plan and the section that declares them. -/
structure TaskPopulation where
  area : String
  tasks : List Task

namespace TaskPopulation

/-- The ids that the tasks declare, with repetitions. -/
def ids (population : TaskPopulation) : List String :=
  population.tasks.filterMap Task.id

end TaskPopulation

/-- The tasks that the phases declare. -/
def PhaseLayout.tasks (layout : PhaseLayout) : List Task :=
  layout.phases.flatMap fun phase =>
    (((phase.get? "tasks").bind Json.array?).getD []).filterMap Task.ofJson?

/-- The tasks of the phases, or the flat list of the task system if the phases declare none. -/
def Plan.population (plan : Plan) : TaskPopulation :=
  match plan.phaseLayout.tasks with
  | [] => ⟨taskSystemKey, (plan.flatTasks?.getD []).filterMap Task.ofJson?⟩
  | tasks => ⟨phasesKey, tasks⟩

end PlanAudit
