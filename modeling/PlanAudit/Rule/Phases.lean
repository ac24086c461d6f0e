import PlanAudit.Finding

/-! Phases of an array are complete, and phases with keys are rated rightly. -/
namespace PlanAudit.Rule

def phaseFields : List String :=
  ["phase", "name", "tasks", "deliverables"]

/-- A phase is named by its number, else by its name, else by its place in the array. -/
def phaseLabel (phase : Json) (index : Nat) : String :=
  match phase.get? "phase", phase.get? "name" with
  | some (.string number), _ => s!"Phase {number}"
  | some (.integer n), _ => s!"Phase {(Json.integer n).compact}"
  | some (.float x), _ => s!"Phase {(Json.float x).compact}"
  | _, some (.string name) => name
  | _, _ => s!"Phase #{index + 1}"

def missingFields (phase : Json) (index : Nat) : List Finding :=
  (phaseFields.filter (phase.get? · |>.isNone)).map (.missingPhaseField (phaseLabel phase index))

/-- The values of `complexity` that are allowed. -/
def isComplexity : Json → Bool
  | .string level => complexityLevels.contains level
  | _ => false

/-- Effort is an integer from 1 to 5. -/
def isEffort : Json → Bool
  | .integer n => 1 ≤ n && n ≤ 5
  | _ => false

def wrongRatings (key : String) (phase : Json) : List Finding :=
  (((phase.get? "complexity").filter (!isComplexity ·)).map (.invalidComplexity key)).toList
    ++ (((phase.get? "effort_level").filter (!isEffort ·)).map (.invalidEffort key)).toList
    ++ ((phase.get? "duration").map fun _ => .deprecatedDuration key).toList

def phaseFaults : PhaseLayout → List Finding
  | .array phases => (phases.zipIdx.map fun (phase, index) => missingFields phase index).flatten
  | .keyed phases => phases.flatMap fun (key, phase) => wrongRatings key phase
  | .absent => []

end PlanAudit.Rule
