import PlanAudit.Finding
import PlanAudit.Vocabulary

/-! If a plan has a workorder, the workorder is complete and every task names it. -/
namespace PlanAudit.Rule

def isWorkorderId : Json → Bool
  | .string id => Vocabulary.workorderId.occursIn id.toList
  | _ => false

def workorderIdFaults : Option Json → List Finding
  | none => [.missingWorkorderId]
  | some id => if isWorkorderId id then [] else [.malformedWorkorderId id]

def missingWorkorderFields (workorder : Json.Members) : List Finding :=
  (["name", "feature_dir"].filter (!workorder.has ·)).map .missingWorkorderField

/-- The list of the workorder itself, or else the flat list of the task system. -/
def workorderTasks (plan : Plan) (workorder : Json.Members) : List Json :=
  (((workorder.get? "tasks").bind Json.array?).or plan.flatTasks?).getD []

/-- Only entries that are objects have to name the workorder. -/
def taskWorkorderFaults (id : Json) (entry : Json) : List Finding :=
  if !entry.isObject then [] else
  match Task.ofJson? entry with
  | none => []
  | some task =>
    match task.workorderId with
    | none => [.missingTaskWorkorder task.label id]
    | some found => if found.same id then [] else [.wrongTaskWorkorder task.label found id]

def workorderFaults (plan : Plan) : List Finding :=
  match plan.workorder? with
  | none => []
  | some workorder =>
    let id := workorder.get? "id"
    workorderIdFaults id ++ missingWorkorderFields workorder ++
      match id with
      | none => []
      | some id => (workorderTasks plan workorder).flatMap (taskWorkorderFaults id)

end PlanAudit.Rule
