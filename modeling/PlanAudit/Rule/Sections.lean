import PlanAudit.Finding

/-! The metadata block and the sections have to be there. -/
namespace PlanAudit.Rule

def missingMetadata (plan : Plan) : List Finding :=
  if plan.metadata?.isSome then [] else [.missingMetadata]

/-- Without the object that holds them no section is asked for. -/
def missingSections (required : List String) (plan : Plan) : List Finding :=
  match plan.sections? with
  | none => [.missingContainer]
  | some sections => (required.filter (!sections.has ·)).map .missingSection

end PlanAudit.Rule
